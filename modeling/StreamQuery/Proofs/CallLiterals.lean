import Mathlib.Data.List.Nodup
import StreamQuery.Proofs.Calls

/-!
# Calls as literals

The calls that are collected from an expression are those that its evaluation asks for. Where each
of them has a finished result, no call is out of place, and the expression has the value of the one
that has a literal of the result in place of each outermost call. Collecting puts new calls behind
those that were there, and collects something from an expression if and only if it has a call.
-/

namespace StreamQuery

/-! ## Collecting -/

/-- A list of calls with others behind it, which are new and all different. -/
def AddsNew (calls extended : List Call) : Prop :=
  ∃ added, extended = calls ++ added ∧ added.Nodup ∧ ∀ call ∈ added, call ∉ calls

theorem AddsNew.refl (calls : List Call) : AddsNew calls calls :=
  ⟨[], (List.append_nil calls).symm, List.nodup_nil, by simp⟩

theorem AddsNew.trans {calls middle extended : List Call} (first : AddsNew calls middle)
    (second : AddsNew middle extended) : AddsNew calls extended := by
  obtain ⟨added, rfl, distinct, new⟩ := first
  obtain ⟨more, rfl, others, newer⟩ := second
  refine ⟨added ++ more, List.append_assoc _ _ _, ?_, ?_⟩
  · refine distinct.append others fun call inAdded inMore => ?_
    exact newer call inMore (List.mem_append_right calls inAdded)
  · intro call member known
    rcases List.mem_append.mp member with inAdded | inMore
    · exact new call inAdded known
    · exact newer call inMore (List.mem_append_left added known)

theorem addsNew_addCall (calls : List Call) (call : Call) : AddsNew calls (addCall calls call) := by
  unfold addCall
  split_ifs with known
  · exact .refl calls
  · refine ⟨[call], rfl, List.nodup_singleton call, fun one member => ?_⟩
    rw [List.mem_singleton.mp member]
    exact known

mutual

/-- Collecting keeps the calls that were there in front, and adds only new ones. -/
theorem addsNew_addCalls : ∀ (calls : List Call) (e : Expr), AddsNew calls (e.addCalls calls)
  | calls, .lit _ => .refl calls
  | calls, .var _ => .refl calls
  | calls, .rename inner _ => addsNew_addCalls calls inner
  | calls, .not operand => addsNew_addCalls calls operand
  | calls, .call function argument => addsNew_addCall calls (function, argument)
  | calls, .binary _ left right =>
    (addsNew_addCalls calls left).trans (addsNew_addCalls (left.addCalls calls) right)
  | calls, .case arms => addsNew_addArmCalls calls arms

theorem addsNew_addArmCalls : ∀ (calls : List Call) (arms : Arms), AddsNew calls (arms.addCalls calls)
  | calls, .done => .refl calls
  | calls, .otherwise result => addsNew_addCalls calls result
  | calls, .when condition result rest =>
    ((addsNew_addCalls calls condition).trans (addsNew_addCalls (condition.addCalls calls) result)).trans
      (addsNew_addArmCalls (result.addCalls (condition.addCalls calls)) rest)

end

/-! ## Literals in place of calls -/

mutual

/-- The expression with a literal in place of each outermost call, of the result of its first entry.
    A call without one stays. -/
def Expr.substitute (finished : Finished) : Expr → Expr
  | .lit value => .lit value
  | .rename inner name => .rename (inner.substitute finished) name
  | .var name => .var name
  | .not operand => .not (operand.substitute finished)
  | .binary op left right => .binary op (left.substitute finished) (right.substitute finished)
  | .case arms => .case (arms.substitute finished)
  | .call function argument =>
    match finished.find? fun entry => entry.1 = (function, argument) with
    | some entry => .lit entry.2
    | none => .call function argument

def Arms.substitute (finished : Finished) : Arms → Arms
  | .done => .done
  | .otherwise result => .otherwise (result.substitute finished)
  | .when condition result rest =>
    .when (condition.substitute finished) (result.substitute finished) (rest.substitute finished)

end

section Results

variable {finished : Finished}

theorem lookup_eq_find (finished : Finished) (call : Call) :
    finished.lookup call = (finished.find? fun entry => entry.1 = call).map Prod.snd := by
  induction finished with
  | nil => rfl
  | cons entry rest ih =>
    rw [List.lookup_cons, List.find?_cons]
    by_cases here : entry.1 = call
    · simp [here]
    · have skipped : (call == entry.1) = false := by simpa using Ne.symm here
      simp [here, skipped, ih]

theorem lookup_of_entry {call : Call} {v : Value} (entry : (call, v) ∈ finished) :
    ∃ w, finished.lookup call = some w := by
  rw [lookup_eq_find]
  have found : (finished.find? fun entry => entry.1 = call).isSome :=
    List.find?_isSome.mpr ⟨(call, v), entry, by simp⟩
  obtain ⟨first, same⟩ := Option.isSome_iff_exists.mp found
  exact ⟨first.2, by rw [same]; rfl⟩

mutual

/-- A literal in place of a call has the value that the call stands for. A call without a result is
    out of place either way. -/
theorem eval_substitute (scope : Scope) :
    ∀ e : Expr, (e.substitute finished).eval scope = e.evalWith scope finished
  | .lit _ => rfl
  | .var _ => rfl
  | .rename inner _ => eval_substitute scope inner
  | .not operand => by
    have inside := eval_substitute scope operand
    unfold Expr.eval at inside ⊢
    rw [Expr.substitute, Expr.evalWith, Expr.evalWith, inside]
  | .binary op left right => by
    have first := eval_substitute scope left
    have second := eval_substitute scope right
    unfold Expr.eval at first second ⊢
    rw [Expr.substitute, Expr.evalWith, Expr.evalWith, first, second]
  | .case arms => evalArms_substitute scope arms
  | .call function argument => by
    unfold Expr.eval
    rw [Expr.substitute, Expr.evalWith, lookup_eq_find]
    cases finished.find? fun entry => entry.1 = (function, argument) with
    | none => rfl
    | some entry => rfl

theorem evalArms_substitute (scope : Scope) :
    ∀ arms : Arms, (arms.substitute finished).evalWith scope [] = arms.evalWith scope finished
  | .done => rfl
  | .otherwise result => eval_substitute scope result
  | .when condition result rest => by
    have test := eval_substitute scope condition
    have value := eval_substitute scope result
    have others := evalArms_substitute scope rest
    unfold Expr.eval at test value
    rw [Arms.substitute, Arms.evalWith, Arms.evalWith, test, value, others]

end

mutual

theorem outerCalls_substitute : ∀ e : Expr, (∀ call ∈ e.outerCalls, ∃ v, finished.lookup call = some v) →
    (e.substitute finished).outerCalls = []
  | .lit _, _ => rfl
  | .var _, _ => rfl
  | .rename inner _, known => outerCalls_substitute inner known
  | .not operand, known => outerCalls_substitute operand known
  | .binary _ left right, known => by
    rw [Expr.outerCalls, List.forall_mem_append] at known
    rw [Expr.substitute, Expr.outerCalls, outerCalls_substitute left known.1, outerCalls_substitute right known.2]
    rfl
  | .case arms, known => outerArmCalls_substitute arms known
  | .call function argument, known => by
    obtain ⟨v, found⟩ := known (function, argument) (List.mem_singleton_self _)
    rw [lookup_eq_find] at found
    obtain ⟨entry, first, _⟩ := Option.map_eq_some_iff.mp found
    rw [Expr.substitute, first]
    rfl

theorem outerArmCalls_substitute : ∀ arms : Arms, (∀ call ∈ arms.outerCalls, ∃ v, finished.lookup call = some v) →
    (arms.substitute finished).outerCalls = []
  | .done, _ => rfl
  | .otherwise result, known => outerCalls_substitute result known
  | .when condition result rest, known => by
    rw [Arms.outerCalls, List.forall_mem_append, List.forall_mem_append] at known
    obtain ⟨⟨test, value⟩, others⟩ := known
    rw [Arms.substitute, Arms.outerCalls, outerCalls_substitute condition test, outerCalls_substitute result value,
      outerArmCalls_substitute rest others]
    rfl

end

end Results

/-! ## Calls out of place -/

/-- An outcome that blames no call for its place. -/
def InPlace {α : Type} (outcome : Except Error α) : Prop :=
  ∀ f, outcome ≠ .error (.invalidValue (.misplacedAggregate f))

theorem inPlace_ok {α : Type} (a : α) : InPlace (.ok a) := nofun

theorem InPlace.bind {α β : Type} {first : Except Error α} {next : α → Except Error β} (here : InPlace first)
    (later : ∀ a, InPlace (next a)) : InPlace (first >>= next) := by
  cases first with
  | error e => exact fun f same => here f (congrArg Except.error (Except.error.inj same))
  | ok a => exact later a

theorem inPlace_lookup (scope : Scope) (name : String) : InPlace (scope.lookup name) := by
  unfold Scope.lookup
  cases scope.get? name with
  | none => exact nofun
  | some v => exact nofun

theorem inPlace_negate (v : Value) : InPlace (negate v) := by
  cases v <;> exact nofun

theorem inPlace_isSatisfied (place : String) (v : Value) : InPlace (isSatisfied place v) := by
  cases v <;> exact nofun

theorem inPlace_onInts (op : ArithOp) (a b : Int) : InPlace (op.onInts a b) := by
  refine InPlace.bind ?_ fun n => ?_
  · cases op with
    | div =>
      unfold ArithOp.exact
      split_ifs <;> exact nofun
    | _ => exact nofun
  · split_ifs <;> exact nofun

theorem inPlace_apply (op : BinaryOp) (v w : Value) : InPlace (op.apply v w) := by
  cases op with
  | compare op => cases v <;> cases w <;> exact nofun
  | arith op =>
    cases v with
    | int a =>
      cases w with
      | int b => exact (inPlace_onInts op a b).bind fun n => inPlace_ok (Value.int n)
      | _ => exact nofun
    | _ => cases w <;> exact nofun

section Evaluation

variable {finished : Finished} {scope : Scope}

mutual

/-- Where every outermost call has a result, evaluation finds none out of place. -/
theorem inPlace_evalWith : ∀ e : Expr, (∀ call ∈ e.outerCalls, ∃ v, finished.lookup call = some v) →
    InPlace (e.evalWith scope finished)
  | .lit v, _ => inPlace_ok v
  | .var name, _ => inPlace_lookup scope name
  | .rename inner _, known => inPlace_evalWith inner known
  | .not operand, known => by
    rw [Expr.evalWith]
    exact (inPlace_evalWith operand known).bind inPlace_negate
  | .binary op left right, known => by
    rw [Expr.outerCalls, List.forall_mem_append] at known
    rw [Expr.evalWith]
    exact (inPlace_evalWith left known.1).bind fun v =>
      (inPlace_evalWith right known.2).bind fun w => inPlace_apply op v w
  | .case arms, known => inPlace_evalArms arms known
  | .call function argument, known => by
    obtain ⟨v, found⟩ := known (function, argument) (List.mem_singleton_self _)
    rw [Expr.evalWith, found]
    exact inPlace_ok v

theorem inPlace_evalArms : ∀ arms : Arms, (∀ call ∈ arms.outerCalls, ∃ v, finished.lookup call = some v) →
    InPlace (arms.evalWith scope finished)
  | .done, _ => inPlace_ok Value.null
  | .otherwise result, known => inPlace_evalWith result known
  | .when condition result rest, known => by
    rw [Arms.outerCalls, List.forall_mem_append, List.forall_mem_append] at known
    obtain ⟨⟨test, value⟩, others⟩ := known
    rw [Arms.evalWith]
    refine (inPlace_evalWith condition test).bind fun v => (inPlace_isSatisfied caseCondition v).bind fun satisfied => ?_
    cases satisfied with
    | true => exact inPlace_evalWith result value
    | false => exact inPlace_evalArms rest others

end

end Evaluation

/-- Collecting the calls of an expression and evaluating it with their results go together. Where the
    finished results have an entry for each call of a list that the calls of the expression were added
    to, no call is found out of place, and the outcome is that of the expression where a literal of the
    first result stands in place of each outermost call, so that no call is left in it. Collecting
    keeps the calls that were there in front and adds only new ones, each once, and it collects
    something where nothing was there if and only if the expression has a call. -/
theorem collected_calls (e : Expr) :
    (∀ (calls : List Call) (scope : Scope) (finished : Finished),
      (∀ call ∈ e.addCalls calls, ∃ v, (call, v) ∈ finished) →
      InPlace (e.evalWith scope finished) ∧
        e.evalWith scope finished = (e.substitute finished).eval scope ∧
        (e.substitute finished).hasCall = false) ∧
    (∀ calls, AddsNew calls (e.addCalls calls)) ∧
    (e.addCalls [] ≠ [] ↔ e.hasCall = true) := by
  refine ⟨fun calls scope finished entries => ?_, fun calls => addsNew_addCalls calls e, ?_⟩
  · have known : ∀ call ∈ e.outerCalls, ∃ v, finished.lookup call = some v := by
      intro call member
      obtain ⟨v, entry⟩ := entries call (mem_addCalls.mpr (.inr member))
      exact lookup_of_entry entry
    have none_left : ¬ (e.substitute finished).hasCall = true := by
      rw [hasCall_iff, not_not]
      exact outerCalls_substitute e known
    exact ⟨inPlace_evalWith e known, (eval_substitute scope e).symm, Bool.eq_false_iff.mpr none_left⟩
  · rw [hasCall_iff, Ne, Ne, List.eq_nil_iff_forall_not_mem, List.eq_nil_iff_forall_not_mem]
    simp [mem_addCalls]

/-- The theorem at a CASE with a call under NOT in its condition and one of a call in its result. The
    list of calls has the second before, and the first of its two entries counts. -/
theorem collected_calls_case :
    let any : Call := (.boolOr, .var "b")
    let total : Call := (.sum, .call .sum (.var "a"))
    let e : Expr := .rename (.case (.when (.not (.call .boolOr (.var "b")))
      (.binary (.arith .div) (.lit (.int 7)) (.call .sum (.call .sum (.var "a")))) (.otherwise (.var "x")))) "y"
    let finished : Finished := [(any, .bool false), (total, .int 0), (total, .int 2)]
    (∀ call ∈ e.addCalls [total], ∃ v, (call, v) ∈ finished) ∧ e.addCalls [total] = [total, any] ∧
      InPlace (e.evalWith .empty finished) ∧
      e.evalWith .empty finished = .error (.invalidValue .divisionByZero) ∧
      (e.substitute finished).eval .empty = .error (.invalidValue .divisionByZero) ∧
      (e.substitute finished).hasCall = false := by
  intro any total e finished
  have collected : e.addCalls [total] = [total, any] := by decide
  have entries : ∀ call ∈ e.addCalls [total], ∃ v, (call, v) ∈ finished := by
    rw [collected, List.forall_mem_cons, List.forall_mem_singleton]
    exact ⟨⟨.int 0, by simp [finished]⟩, .bool false, by simp [finished]⟩
  have failed : e.evalWith .empty finished = .error (.invalidValue .divisionByZero) := rfl
  obtain ⟨inPlace, same, without⟩ := (collected_calls e).1 [total] .empty finished entries
  exact ⟨entries, collected, inPlace, failed, same.symm.trans failed, without⟩

end StreamQuery
