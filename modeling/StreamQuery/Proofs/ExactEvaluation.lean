import StreamQuery.Proofs.Calls

/-!
# Evaluation over unbounded integers

Evaluation refines evaluation over unbounded integers. The latter notes the results of arithmetic in
the order in which it computes them (`Exact`). Looking through them for the first that does not have
64 bits makes a checked computation of an exact one (`Exact.checked`), and this goes through every
step of evaluation (`RefinedBy.bind`): what is computed behind a result that is out of range, a later
error included, does not matter.
-/

namespace StreamQuery

/-- An error that says of a result of arithmetic that it does not have 64 bits. -/
def Error.IsOverflow (e : Error) : Prop := ∃ op a b, e = .invalidValue (.overflow op a b)

/-- A result of arithmetic, with the operator and the operands. -/
structure Computed where
  op : ArithOp
  left : Int
  right : Int
  result : Int
  deriving DecidableEq

def Computed.Fits (c : Computed) : Prop := minInt ≤ c.result ∧ c.result ≤ maxInt

/-- A computation over unbounded integers: the results of arithmetic, in the order in which they are
    computed and up to the first error, and the outcome. -/
structure Exact (α : Type) where
  computed : List Computed
  outcome : Except Error α
  deriving DecidableEq

namespace Exact

variable {α β : Type}

/-- An outcome without arithmetic. -/
def ofOutcome (outcome : Except Error α) : Exact α := ⟨[], outcome⟩

/-- The outcome of one operation on integers. -/
def ofResult (op : ArithOp) (a b n : Int) : Exact Int := ⟨[⟨op, a, b, n⟩], .ok n⟩

instance : Monad Exact where
  pure a := ofOutcome (.ok a)
  bind first next :=
    match first.outcome with
    | .error e => ⟨first.computed, .error e⟩
    | .ok a => ⟨first.computed ++ (next a).computed, (next a).outcome⟩

/-- The outcome if results need to have 64 bits: the first that has not is an error. -/
def checked (x : Exact α) : Except Error α :=
  match x.computed.find? fun c => !inRange c.result with
  | some c => .error (.invalidValue (.overflow c.op c.left c.right))
  | none => x.outcome

end Exact

/-! ## The exact evaluation -/

namespace ArithOp

/-- An operator on unbounded integers. A division drops the fraction, and one by zero fails. -/
def onUnbounded (op : ArithOp) (a b : Int) : Exact Int :=
  match op with
  | add => .ofResult add a b (a + b)
  | sub => .ofResult sub a b (a - b)
  | mul => .ofResult mul a b (a * b)
  | div =>
    if b = 0 then .ofOutcome (.error (.invalidValue .divisionByZero)) else .ofResult div a b (a.tdiv b)

/-- An operator on values with unbounded integers. With NULL there is nothing to compute. -/
def applyExact (op : ArithOp) : Value → Value → Exact Value
  | .int a, .int b => .int <$> op.onUnbounded a b
  | .int _, .null => pure .null
  | .null, .int _ => pure .null
  | .null, .null => pure .null
  | v, w => .ofOutcome (.error (.typeMismatch (.operands (.arith op)) (.values v w)))

end ArithOp

/-- An operator between two operands with unbounded integers. Comparisons compute none. -/
def BinaryOp.applyExact : BinaryOp → Value → Value → Exact Value
  | arith op, v, w => op.applyExact v w
  | compare op, v, w => .ofOutcome (op.apply v w)

mutual

/-- The value of an expression in a scope where integers are unbounded. -/
def Expr.evalExact (scope : Scope) (finished : Finished) : Expr → Exact Value
  | .lit value => pure value
  | .rename inner _ => inner.evalExact scope finished
  | .var name => .ofOutcome (scope.lookup name)
  | .not operand => do
    let v ← operand.evalExact scope finished
    .ofOutcome (negate v)
  | .binary op left right => do
    let v ← left.evalExact scope finished
    let w ← right.evalExact scope finished
    op.applyExact v w
  | .case arms => arms.evalExact scope finished
  | .call function argument => .ofOutcome (finished.value (function, argument))

def Arms.evalExact (scope : Scope) (finished : Finished) : Arms → Exact Value
  | .done => pure .null
  | .otherwise result => result.evalExact scope finished
  | .when condition result rest => do
    let v ← condition.evalExact scope finished
    let satisfied ← .ofOutcome (isSatisfied caseCondition v)
    if satisfied then result.evalExact scope finished else rest.evalExact scope finished

end

/-! ## Checking exact computations -/

/-- A checked computation that refines an exact one: its outcome is that of looking for the first
    result out of range, and the exact computation itself never overflows. -/
structure Exact.RefinedBy {α : Type} (x : Exact α) (outcome : Except Error α) : Prop where
  checked : x.checked = outcome
  noOverflow : ∀ e, x.outcome = .error e → ¬ e.IsOverflow

section Refinement

variable {α β : Type} {outcome : Except Error α}

theorem refinedBy_ofOutcome (noOverflow : ∀ e, outcome = .error e → ¬ e.IsOverflow) :
    (Exact.ofOutcome outcome).RefinedBy outcome := ⟨rfl, noOverflow⟩

theorem refinedBy_ok (a : α) : (Exact.ofOutcome (.ok a)).RefinedBy (.ok a) :=
  refinedBy_ofOutcome fun _ failed => nomatch failed

/-- Looking for the first result out of range goes through the steps of a computation. -/
theorem checked_bind (x : Exact α) (next : α → Exact β) :
    (x >>= next).checked = x.checked >>= fun a => (next a).checked := by
  obtain ⟨computed, outcome⟩ := x
  cases outcome with
  | error e =>
    show Exact.checked ⟨computed, .error e⟩ = _
    unfold Exact.checked
    cases computed.find? fun c => !inRange c.result <;> rfl
  | ok a =>
    show Exact.checked ⟨computed ++ (next a).computed, (next a).outcome⟩ = _
    unfold Exact.checked
    dsimp only
    rw [List.find?_append]
    cases computed.find? fun c => !inRange c.result <;> rfl

theorem Exact.RefinedBy.bind {x : Exact α} {next : α → Exact β} {following : α → Except Error β}
    (first : x.RefinedBy outcome) (later : ∀ a, (next a).RefinedBy (following a)) :
    (x >>= next).RefinedBy (outcome >>= following) where
  checked := by
    rw [checked_bind, first.checked]
    exact bind_congr fun a => (later a).checked
  noOverflow e failed := by
    obtain ⟨computed, result⟩ := x
    cases result with
    | error e' => exact first.noOverflow e (congrArg _ (Except.error.inj failed))
    | ok a => exact (later a).noOverflow e failed

end Refinement

/-! ## Evaluation -/

theorem refinedBy_lookup (scope : Scope) (name : String) :
    (Exact.ofOutcome (scope.lookup name)).RefinedBy (scope.lookup name) := by
  refine refinedBy_ofOutcome fun e failed => ?_
  unfold Scope.lookup at failed
  cases found : scope.get? name with
  | some v =>
    rw [found] at failed
    cases failed
  | none =>
    rw [found] at failed
    cases failed
    exact nofun

theorem refinedBy_negate (v : Value) : (Exact.ofOutcome (negate v)).RefinedBy (negate v) := by
  refine refinedBy_ofOutcome fun e failed => ?_
  cases v <;> cases failed
  exact nofun

theorem refinedBy_isSatisfied (place : String) (v : Value) :
    (Exact.ofOutcome (isSatisfied place v)).RefinedBy (isSatisfied place v) := by
  refine refinedBy_ofOutcome fun e failed => ?_
  cases v <;> cases failed
  exact nofun

theorem refinedBy_call (finished : Finished) (call : Call) :
    (Exact.ofOutcome (finished.value call)).RefinedBy (finished.value call) := by
  refine refinedBy_ofOutcome fun e failed => ?_
  unfold Finished.value at failed
  cases found : finished.lookup call with
  | some v =>
    rw [found] at failed
    cases failed
  | none =>
    rw [found] at failed
    cases failed
    exact nofun

theorem refinedBy_compare (op : CompareOp) (v w : Value) :
    (Exact.ofOutcome (op.apply v w)).RefinedBy (op.apply v w) := by
  refine refinedBy_ofOutcome fun e failed => ?_
  cases v <;> cases w <;> cases failed <;> exact nofun

/-- A result out of range is the overflow of its operator. -/
theorem refinedBy_ofResult (op : ArithOp) {a b n : Int} (exact : op.exact a b = .ok n) :
    (Exact.ofResult op a b n).RefinedBy (op.onInts a b) where
  checked := by
    unfold ArithOp.onInts
    rw [exact]
    show (match [Computed.mk op a b n].find? fun c => !inRange c.result with
      | some c => .error (.invalidValue (.overflow c.op c.left c.right))
      | none => .ok n : Except Error Int) = if inRange n then .ok n else .error (.invalidValue (.overflow op a b))
    rw [List.find?_singleton]
    cases inRange n <;> rfl
  noOverflow _ failed := nomatch failed

theorem refinedBy_onInts (op : ArithOp) (a b : Int) : (op.onUnbounded a b).RefinedBy (op.onInts a b) := by
  cases op with
  | add => exact refinedBy_ofResult .add rfl
  | sub => exact refinedBy_ofResult .sub rfl
  | mul => exact refinedBy_ofResult .mul rfl
  | div =>
    unfold ArithOp.onUnbounded
    by_cases zero : b = 0
    · subst zero
      refine refinedBy_ofOutcome fun e failed => ?_
      cases failed
      exact nofun
    · simp only [if_neg zero]
      exact refinedBy_ofResult .div (if_neg zero)

theorem refinedBy_arith (op : ArithOp) (v w : Value) : (op.applyExact v w).RefinedBy (op.apply v w) := by
  have mistyped : (Exact.ofOutcome (.error (.typeMismatch (.operands (.arith op)) (.values v w)))).RefinedBy
      (.error (.typeMismatch (.operands (.arith op)) (.values v w)) : Except Error Value) := by
    refine refinedBy_ofOutcome fun e failed => ?_
    cases failed
    exact nofun
  cases v with
  | int a =>
    cases w with
    | int b => exact (refinedBy_onInts op a b).bind fun n => refinedBy_ok (Value.int n)
    | null => exact refinedBy_ok Value.null
    | bool _ => exact mistyped
  | null =>
    cases w with
    | bool _ => exact mistyped
    | _ => exact refinedBy_ok Value.null
  | bool _ => exact mistyped

theorem refinedBy_apply (op : BinaryOp) (v w : Value) : (op.applyExact v w).RefinedBy (op.apply v w) := by
  cases op with
  | arith op => exact refinedBy_arith op v w
  | compare op => exact refinedBy_compare op v w

mutual

theorem refinedBy_evalWith (scope : Scope) (finished : Finished) :
    ∀ e : Expr, (e.evalExact scope finished).RefinedBy (e.evalWith scope finished)
  | .lit value => refinedBy_ok value
  | .rename inner _ => refinedBy_evalWith scope finished inner
  | .var name => refinedBy_lookup scope name
  | .not operand => by
    rw [Expr.evalExact, Expr.evalWith]
    exact (refinedBy_evalWith scope finished operand).bind refinedBy_negate
  | .binary op left right => by
    rw [Expr.evalExact, Expr.evalWith]
    refine (refinedBy_evalWith scope finished left).bind fun v => ?_
    exact (refinedBy_evalWith scope finished right).bind fun w => refinedBy_apply op v w
  | .case arms => refinedBy_evalArms scope finished arms
  | .call function argument => refinedBy_call finished (function, argument)

/-- Only the arms that are reached are computed, and they refine the exact ones. -/
theorem refinedBy_evalArms (scope : Scope) (finished : Finished) :
    ∀ arms : Arms, (arms.evalExact scope finished).RefinedBy (arms.evalWith scope finished)
  | .done => refinedBy_ok Value.null
  | .otherwise result => refinedBy_evalWith scope finished result
  | .when condition result rest => by
    rw [Arms.evalExact, Arms.evalWith]
    refine (refinedBy_evalWith scope finished condition).bind fun v => ?_
    refine (refinedBy_isSatisfied caseCondition v).bind fun satisfied => ?_
    cases satisfied with
    | true => exact refinedBy_evalWith scope finished result
    | false => exact refinedBy_evalArms scope finished rest

end

/-! ## The first result out of range -/

theorem fits_iff {c : Computed} : inRange c.result = true ↔ c.Fits := inRange_iff

section Outcomes

variable {α : Type} {x : Exact α} {outcome : Except Error α}

/-- A refinement has the outcome of the exact computation, if all results have 64 bits. -/
theorem Exact.RefinedBy.all_fit (refined : x.RefinedBy outcome) (fit : ∀ c ∈ x.computed, c.Fits) :
    outcome = x.outcome := by
  have none : (x.computed.find? fun c => !inRange c.result) = none :=
    List.find?_eq_none.mpr fun c member => by simp [fits_iff.mpr (fit c member)]
  rw [← refined.checked, Exact.checked, none]

/-- A refinement fails with the overflow of the first result that does not have 64 bits. -/
theorem Exact.RefinedBy.overflow (refined : x.RefinedBy outcome) {before after : List Computed} {c : Computed}
    (split : x.computed = before ++ c :: after) (fit : ∀ earlier ∈ before, earlier.Fits) (unfit : ¬ c.Fits) :
    outcome = .error (.invalidValue (.overflow c.op c.left c.right)) := by
  have first : (x.computed.find? fun c => !inRange c.result) = some c := by
    refine List.find?_eq_some_iff_append.mpr ⟨?_, before, after, split, fun earlier member => ?_⟩
    · simpa [← fits_iff] using unfit
    · simp [fits_iff.mpr (fit earlier member)]
  rw [← refined.checked, Exact.checked, first]

theorem all_fit_or_first (computed : List Computed) :
    (∀ c ∈ computed, c.Fits) ∨
      ∃ before c after, computed = before ++ c :: after ∧ (∀ earlier ∈ before, earlier.Fits) ∧ ¬ c.Fits := by
  cases found : computed.find? fun c => !inRange c.result with
  | none => exact .inl fun c member => fits_iff.mp (by simpa using List.find?_eq_none.mp found c member)
  | some c =>
    obtain ⟨unfit, before, after, split, fit⟩ := List.find?_eq_some_iff_append.mp found
    refine .inr ⟨before, c, after, split, fun earlier member => fits_iff.mp ?_, fun fits => ?_⟩
    · simpa using fit earlier member
    · simp [fits_iff.mpr fits] at unfit

end Outcomes

/-- Evaluation refines exact evaluation. A value is the exact value, and an error other than an
    overflow is the exact error. It fails with an overflow if and only if exact evaluation computes a
    result that does not have 64 bits before it comes to an error, and then with the overflow of the
    first such result. -/
theorem evalWith_refines_evalExact (scope : Scope) (finished : Finished) (e : Expr) :
    (∀ v, e.evalWith scope finished = .ok v → (e.evalExact scope finished).outcome = .ok v) ∧
    (∀ error, e.evalWith scope finished = .error error → ¬ error.IsOverflow →
      (e.evalExact scope finished).outcome = .error error) ∧
    ((∃ error, e.evalWith scope finished = .error error ∧ error.IsOverflow) ↔
      ∃ c ∈ (e.evalExact scope finished).computed, ¬ c.Fits) ∧
    ∀ op a b, e.evalWith scope finished = .error (.invalidValue (.overflow op a b)) ↔
      ∃ before n after, (e.evalExact scope finished).computed = before ++ ⟨op, a, b, n⟩ :: after ∧
        (∀ c ∈ before, c.Fits) ∧ ¬ (Computed.mk op a b n).Fits := by
  have refined := refinedBy_evalWith scope finished e
  generalize e.evalWith scope finished = outcome at refined ⊢
  generalize e.evalExact scope finished = x at refined ⊢
  rcases all_fit_or_first x.computed with fit | ⟨before, c, after, split, fit, unfit⟩
  · obtain rfl := refined.all_fit fit
    refine ⟨fun v => id, fun error failed _ => failed, ⟨?_, ?_⟩, fun op a b => ⟨fun failed => ?_, ?_⟩⟩
    · rintro ⟨error, failed, overflow⟩
      exact absurd overflow (refined.noOverflow error failed)
    · rintro ⟨c, member, unfit⟩
      exact absurd (fit c member) unfit
    · exact absurd ⟨op, a, b, rfl⟩ (refined.noOverflow _ failed)
    · rintro ⟨before, n, after, split, _, unfit⟩
      exact absurd (fit _ (split ▸ List.mem_append_right before List.mem_cons_self)) unfit
  · obtain rfl := refined.overflow split fit unfit
    have member : c ∈ x.computed := split ▸ List.mem_append_right before List.mem_cons_self
    refine ⟨nofun, ?_, ⟨fun _ => ⟨c, member, unfit⟩, fun _ => ⟨_, rfl, _, _, _, rfl⟩⟩, fun op a b => ⟨?_, ?_⟩⟩
    · rintro error same other
      cases same
      exact absurd ⟨_, _, _, rfl⟩ other
    · intro same
      cases same
      exact ⟨before, c.result, after, split, fit, unfit⟩
    · rintro ⟨_, _, _, split, fit, unfit⟩
      exact refined.overflow split fit unfit

/-- The theorem at a value, at a division by zero, and at both behind an overflow: the smallest integer
    is divided by minus one, though the exact sum behind that has 64 bits again. -/
theorem evalWith_refines_evalExact_quotient :
    let quotient : Expr := .binary (.arith .div) (.lit (.int minInt)) (.lit (.int (-1)))
    let byZero : Expr := .binary (.arith .div) (.lit (.int 7)) (.lit (.int 0))
    let half : Expr := .binary (.arith .div) (.lit (.int (-7))) (.lit (.int 2))
    let shrunk : Expr := .binary (.arith .add) quotient half
    let failing : Expr := .binary (.arith .add) quotient byZero
    (half.evalExact .empty []).outcome = .ok (.int (-3)) ∧
      (byZero.evalExact .empty []).outcome = .error (.invalidValue .divisionByZero) ∧
      (∃ c ∈ (failing.evalExact .empty []).computed, ¬ c.Fits) ∧
      (shrunk.evalExact .empty []).outcome = .ok (.int (maxInt - 2)) ∧
      shrunk.evalWith .empty [] = .error (.invalidValue (.overflow .div minInt (-1))) := by
  intro quotient byZero half shrunk failing
  refine ⟨?_, ?_, ?_, by decide, ?_⟩
  · exact (evalWith_refines_evalExact .empty [] half).1 _ (by decide)
  · refine (evalWith_refines_evalExact .empty [] byZero).2.1 _ (by decide) ?_
    rintro ⟨_, _, _, impossible⟩
    cases impossible
  · exact (evalWith_refines_evalExact .empty [] failing).2.2.1.mp ⟨_, by decide, .div, minInt, -1, rfl⟩
  · refine ((evalWith_refines_evalExact .empty [] shrunk).2.2.2 .div minInt (-1)).mpr ?_
    exact ⟨[], maxInt + 1, [⟨.div, -7, 2, -3⟩, ⟨.add, maxInt + 1, -3, maxInt - 2⟩], by decide, by simp,
      fun fits => absurd fits.2 (by decide)⟩

end StreamQuery
