import Mathlib.Data.List.Basic
import StreamQuery.Aggregate.Fold
import StreamQuery.Expr.Eval
import StreamQuery.Proofs.Outcome

/-!
# Calls in expressions

Which calls of aggregate functions an expression evaluates, and how its value depends on
them: only the outermost calls are evaluated, and an expression has one value for any two
ways of giving values to calls that agree on those. In the same way it depends on the names
that it reads outside of calls.
-/

namespace StreamQuery

/-! ## The functions of calls -/

def functionsOf (calls : List Call) : List Aggregate := calls.map fun call => call.1.builtin

@[simp] theorem functionsOf_cons (call : Call) (calls : List Call) :
    functionsOf (call :: calls) = call.1.builtin :: functionsOf calls := rfl

@[simp] theorem length_functionsOf (calls : List Call) : (functionsOf calls).length = calls.length :=
  List.length_map _

theorem functions_found (calls : List Call) :
    (calls.mapM fun call => call.1.function) = .ok (functionsOf calls) :=
  mapM_eq_ok.mpr (List.forall₂_map_right_iff.mpr (List.forall₂_same.mpr fun call _ => call.1.function_eq))

/-! ## The outermost calls -/

mutual

/-- The outermost calls of an expression, in order of appearance. -/
def Expr.outerCalls : Expr → List Call
  | .lit _ => []
  | .rename inner _ => inner.outerCalls
  | .var _ => []
  | .not operand => operand.outerCalls
  | .binary _ left right => left.outerCalls ++ right.outerCalls
  | .case arms => arms.outerCalls
  | .call kind argument => [(kind, argument)]

def Arms.outerCalls : Arms → List Call
  | .done => []
  | .otherwise result => result.outerCalls
  | .when condition result rest =>
    condition.outerCalls ++ result.outerCalls ++ rest.outerCalls

end

theorem mem_addCall {calls : List Call} {call one : Call} :
    one ∈ addCall calls call ↔ one ∈ calls ∨ one = call := by
  unfold addCall
  split_ifs with known
  · exact ⟨.inl, fun h => h.elim id fun same => same ▸ known⟩
  · simp

mutual

theorem mem_addCalls {one : Call} :
    ∀ {calls : List Call} {e : Expr}, one ∈ e.addCalls calls ↔ one ∈ calls ∨ one ∈ e.outerCalls
  | calls, .lit _ => by simp [Expr.addCalls, Expr.outerCalls]
  | calls, .var _ => by simp [Expr.addCalls, Expr.outerCalls]
  | calls, .rename inner _ => mem_addCalls (e := inner)
  | calls, .not operand => mem_addCalls (e := operand)
  | calls, .call function argument => by
    rw [Expr.addCalls, mem_addCall, Expr.outerCalls, List.mem_singleton]
  | calls, .binary _ left right => by
    rw [Expr.addCalls, mem_addCalls, mem_addCalls, Expr.outerCalls, List.mem_append, or_assoc]
  | calls, .case arms => by
    rw [Expr.addCalls, mem_addArmCalls, Expr.outerCalls]

theorem mem_addArmCalls {one : Call} :
    ∀ {calls : List Call} {arms : Arms}, one ∈ arms.addCalls calls ↔ one ∈ calls ∨ one ∈ arms.outerCalls
  | calls, .done => by simp [Arms.addCalls, Arms.outerCalls]
  | calls, .otherwise result => mem_addCalls (e := result)
  | calls, .when condition result rest => by
    rw [Arms.addCalls, mem_addArmCalls, mem_addCalls, mem_addCalls, Arms.outerCalls, List.mem_append,
      List.mem_append, or_assoc, or_assoc, or_assoc]

end

mutual

theorem addCalls_known {calls : List Call} :
    ∀ e : Expr, (∀ call ∈ e.outerCalls, call ∈ calls) → e.addCalls calls = calls
  | .lit _, _ => rfl
  | .var _, _ => rfl
  | .call _ _, known => if_pos (known _ (by simp [Expr.outerCalls]))
  | .rename inner _, known => addCalls_known inner known
  | .not operand, known => addCalls_known operand known
  | .binary _ left right, known => by
    rw [Expr.addCalls, addCalls_known left fun call member => known call (List.mem_append_left _ member),
      addCalls_known right fun call member => known call (List.mem_append_right _ member)]
  | .case arms, known => addArmCalls_known arms known

theorem addArmCalls_known {calls : List Call} :
    ∀ arms : Arms, (∀ call ∈ arms.outerCalls, call ∈ calls) → arms.addCalls calls = calls
  | .done, _ => rfl
  | .otherwise result, known => addCalls_known result known
  | .when condition result rest, known => by
    simp only [Arms.outerCalls, List.mem_append] at known
    rw [Arms.addCalls, addCalls_known condition fun call member => known call (.inl (.inl member)),
      addCalls_known result fun call member => known call (.inl (.inr member)),
      addArmCalls_known rest fun call member => known call (.inr member)]

end

theorem mem_callsOf {es : List Expr} {one : Call} : one ∈ callsOf es ↔ one ∈ es.flatMap Expr.outerCalls := by
  suffices general : ∀ calls : List Call, one ∈ es.foldl Expr.addCalls calls ↔
      one ∈ calls ∨ one ∈ es.flatMap Expr.outerCalls by
    simpa [callsOf] using general []
  induction es with
  | nil => simp
  | cons e rest ih =>
    intro calls
    rw [List.foldl_cons, ih, mem_addCalls, List.flatMap_cons, List.mem_append, or_assoc]

theorem andThen_unit (first second : Visit Unit) :
    ((first.andThen second) ()).1 = ((first ()).1 && (second ()).1) := by
  unfold Visit.andThen
  rcases first () with ⟨_ | _, u⟩
  · rfl
  · rfl

private theorem isEmpty_append {α : Type} (xs ys : List α) :
    (xs ++ ys).isEmpty = (xs.isEmpty && ys.isEmpty) := by
  cases xs <;> rfl

def stopAtCall (node : Expr) : Visit Unit := fun _ => (!node.isCall, ())

mutual

/-- The visit that stops at calls goes through an expression without calls alone. -/
theorem walk_stopAtCall : ∀ e : Expr, (e.walk stopAtCall ()).1 = e.outerCalls.isEmpty
  | .lit _ => rfl
  | .var _ => rfl
  | .rename inner _ => by
    rw [Expr.walk, andThen_unit, walk_stopAtCall inner]; rfl
  | .not operand => by
    rw [Expr.walk, andThen_unit, walk_stopAtCall operand]; rfl
  | .call function argument => by
    rw [Expr.walk, andThen_unit]; rfl
  | .binary _ left right => by
    rw [Expr.walk, andThen_unit, andThen_unit, walk_stopAtCall left, walk_stopAtCall right,
      Expr.outerCalls, isEmpty_append]
    rfl
  | .case arms => by
    rw [Expr.walk, andThen_unit, walk_arms_stopAtCall arms]; rfl

theorem walk_arms_stopAtCall : ∀ arms : Arms, (arms.walk stopAtCall ()).1 = arms.outerCalls.isEmpty
  | .done => rfl
  | .otherwise result => walk_stopAtCall result
  | .when condition result rest => by
    rw [Arms.walk, andThen_unit, andThen_unit, walk_stopAtCall condition, walk_stopAtCall result,
      walk_arms_stopAtCall rest, Arms.outerCalls, isEmpty_append, isEmpty_append, Bool.and_assoc]

end

theorem hasCall_iff (e : Expr) : e.hasCall = true ↔ e.outerCalls ≠ [] := by
  have stops : e.hasCall = !e.outerCalls.isEmpty := congrArg (! ·) (walk_stopAtCall e)
  simp [stops]

/-! ## Values of calls -/

mutual

/-- The value of an expression in a scope, where a function gives the values of calls. -/
def Expr.evalBy (calls : Call → Except Error Value) (scope : Scope) : Expr → Except Error Value
  | .lit value => .ok value
  | .rename inner _ => inner.evalBy calls scope
  | .var name => scope.lookup name
  | .not operand => do negate (← operand.evalBy calls scope)
  | .binary op left right => do
    let a ← left.evalBy calls scope
    let b ← right.evalBy calls scope
    op.apply a b
  | .case arms => arms.evalBy calls scope
  | .call function argument => calls (function, argument)

/-- The result of the first arm whose condition is true, where a function gives the values of
    calls. -/
def Arms.evalBy (calls : Call → Except Error Value) (scope : Scope) : Arms → Except Error Value
  | .done => .ok .null
  | .otherwise result => result.evalBy calls scope
  | .when condition result rest => do
    let v ← condition.evalBy calls scope
    if ← isSatisfied caseCondition v then result.evalBy calls scope
    else rest.evalBy calls scope

end

/-- The value of a call among finished results, which it has to be one of. -/
def Finished.value (finished : Finished) (call : Call) : Except Error Value :=
  match finished.lookup call with
  | some value => .ok value
  | none => .error (.invalidValue (.misplacedAggregate call.1))

mutual

/-- Finished results are one way of giving values to calls. -/
theorem evalWith_eq_evalBy (scope : Scope) (finished : Finished) :
    ∀ e : Expr, e.evalWith scope finished = e.evalBy finished.value scope
  | .lit _ => rfl
  | .var _ => rfl
  | .call _ _ => rfl
  | .rename inner _ => evalWith_eq_evalBy scope finished inner
  | .not operand => by
    rw [Expr.evalWith, Expr.evalBy, evalWith_eq_evalBy scope finished operand]
  | .binary op left right => by
    rw [Expr.evalWith, Expr.evalBy, evalWith_eq_evalBy scope finished left,
      evalWith_eq_evalBy scope finished right]
  | .case arms => evalArms_eq_evalBy scope finished arms

theorem evalArms_eq_evalBy (scope : Scope) (finished : Finished) :
    ∀ arms : Arms, arms.evalWith scope finished = arms.evalBy finished.value scope
  | .done => rfl
  | .otherwise result => evalWith_eq_evalBy scope finished result
  | .when condition result rest => by
    rw [Arms.evalWith, Arms.evalBy, evalWith_eq_evalBy scope finished condition,
      evalWith_eq_evalBy scope finished result, evalArms_eq_evalBy scope finished rest]

end

mutual

/-- An expression depends on its outermost calls alone. -/
theorem evalBy_congr (scope : Scope) {one other : Call → Except Error Value} :
    ∀ e : Expr, (∀ call ∈ e.outerCalls, one call = other call) →
      e.evalBy one scope = e.evalBy other scope
  | .lit _, _ => rfl
  | .var _, _ => rfl
  | .call _ _, agree => agree _ (by simp [Expr.outerCalls])
  | .rename inner _, agree => evalBy_congr scope inner agree
  | .not operand, agree => by
    rw [Expr.evalBy, Expr.evalBy, evalBy_congr scope operand agree]
  | .binary op left right, agree => by
    rw [Expr.evalBy, Expr.evalBy,
      evalBy_congr scope left fun call member => agree call (List.mem_append_left _ member),
      evalBy_congr scope right fun call member => agree call (List.mem_append_right _ member)]
  | .case arms, agree => evalArms_congr scope arms agree

theorem evalArms_congr (scope : Scope) {one other : Call → Except Error Value} :
    ∀ arms : Arms, (∀ call ∈ arms.outerCalls, one call = other call) →
      arms.evalBy one scope = arms.evalBy other scope
  | .done, _ => rfl
  | .otherwise result, agree => evalBy_congr scope result agree
  | .when condition result rest, agree => by
    simp only [Arms.outerCalls, List.mem_append] at agree
    rw [Arms.evalBy, Arms.evalBy,
      evalBy_congr scope condition fun call member => agree call (.inl (.inl member)),
      evalBy_congr scope result fun call member => agree call (.inl (.inr member)),
      evalArms_congr scope rest fun call member => agree call (.inr member)]

end

/-! ## Names that are read -/

mutual

/-- The names that an expression reads, in order of appearance. What is read in the argument of a
    call is not read with the expression. -/
def Expr.outerNames : Expr → List String
  | .lit _ => []
  | .rename inner _ => inner.outerNames
  | .var name => [name]
  | .not operand => operand.outerNames
  | .binary _ left right => left.outerNames ++ right.outerNames
  | .case arms => arms.outerNames
  | .call _ _ => []

def Arms.outerNames : Arms → List String
  | .done => []
  | .otherwise result => result.outerNames
  | .when condition result rest =>
    condition.outerNames ++ result.outerNames ++ rest.outerNames

end

mutual

/-- An expression has one value in any two scopes that agree on the names that it reads. -/
theorem evalBy_congr_scope (calls : Call → Except Error Value) {one other : Scope} :
    ∀ e : Expr, (∀ name ∈ e.outerNames, one.lookup name = other.lookup name) →
      e.evalBy calls one = e.evalBy calls other
  | .lit _, _ => rfl
  | .var _, agree => agree _ (by simp [Expr.outerNames])
  | .call _ _, _ => rfl
  | .rename inner _, agree => evalBy_congr_scope calls inner agree
  | .not operand, agree => by
    rw [Expr.evalBy, Expr.evalBy, evalBy_congr_scope calls operand agree]
  | .binary op left right, agree => by
    rw [Expr.evalBy, Expr.evalBy,
      evalBy_congr_scope calls left fun name member => agree name (List.mem_append_left _ member),
      evalBy_congr_scope calls right fun name member => agree name (List.mem_append_right _ member)]
  | .case arms, agree => evalArms_congr_scope calls arms agree

theorem evalArms_congr_scope (calls : Call → Except Error Value) {one other : Scope} :
    ∀ arms : Arms, (∀ name ∈ arms.outerNames, one.lookup name = other.lookup name) →
      arms.evalBy calls one = arms.evalBy calls other
  | .done, _ => rfl
  | .otherwise result, agree => evalBy_congr_scope calls result agree
  | .when condition result rest, agree => by
    simp only [Arms.outerNames, List.mem_append] at agree
    rw [Arms.evalBy, Arms.evalBy,
      evalBy_congr_scope calls condition fun name member => agree name (.inl (.inl member)),
      evalBy_congr_scope calls result fun name member => agree name (.inl (.inr member)),
      evalArms_congr_scope calls rest fun name member => agree name (.inr member)]

end

end StreamQuery
