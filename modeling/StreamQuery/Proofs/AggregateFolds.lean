import Mathlib.Algebra.BigOperators.Group.List.Basic
import Mathlib.Algebra.Ring.Int.Defs
import StreamQuery.Proofs.Grouping
import StreamQuery.Proofs.SteppedStates

/-!
# What aggregate functions compute

Folding values by `bool_or` computes whether one of them is true, and folding them by `sum` the sum
of their integers, unbounded. The fold fails at the first value of another kind, and that of `sum`
also where the sum so far leaves the 64 bits, whatever the values behind it are. Neither result
depends on the order of the values.
-/

namespace StreamQuery

def total (vs : List Value) : Int :=
  (vs.filterMap fun | .int n => some n | _ => none).sum

/-- The values that some rows have at a place. -/
def column (i : Nat) (rows : List Record) : List Value := rows.filterMap (·[i]?)

namespace Aggregate

/-- The values that a function folds: NULL and those of its kind. -/
def Takes : Aggregate → Value → Prop
  | _, .null => True
  | boolOr, .bool _ => True
  | sum, .int _ => True
  | _, _ => False

/-- Values that a function folds without an error: it takes each of them, and the sum of those up to
    any place is in range. -/
structure Foldable (f : Aggregate) (vs : List Value) : Prop where
  takes : ∀ v ∈ vs, f.Takes v
  inRange : f = sum → ∀ beginning, beginning <+: vs → minInt ≤ total beginning ∧ total beginning ≤ maxInt

/-- What a function computes of values: whether one is true, and the exact sum of the integers. -/
def exact : Aggregate → List Value → Value
  | boolOr, vs => .bool (decide (.bool true ∈ vs))
  | sum, vs => .int (total vs)

/-- Why a function cannot fold a value behind others: it does not take the value, or the sum leaves
    the range at it. -/
inductive Refuses (f : Aggregate) (vs : List Value) (v : Value) : Error → Prop where
  | mistyped : ¬ f.Takes v → Refuses f vs v (.typeMismatch (.argument f) (.value v))
  | overflow : f = sum → f.Takes v → total (vs ++ [v]) < minInt ∨ maxInt < total (vs ++ [v]) →
      Refuses f vs v (.invalidValue .sumOverflow)

end Aggregate

theorem total_perm {vs ws : List Value} (perm : vs.Perm ws) : total vs = total ws :=
  (perm.filterMap _).sum_eq

namespace Aggregate

variable {f : Aggregate} {vs ws : List Value} {v w : Value} {e : Error}

theorem foldable_nil (f : Aggregate) : f.Foldable [] where
  takes := nofun
  inRange _ beginning first := by
    rw [List.prefix_nil.mp first]
    exact ⟨by decide, by decide⟩

theorem foldable_concat :
    f.Foldable (vs ++ [v]) ↔
      f.Foldable vs ∧ f.Takes v ∧ (f = sum → minInt ≤ total (vs ++ [v]) ∧ total (vs ++ [v]) ≤ maxInt) := by
  constructor
  · intro all
    refine ⟨⟨fun w member => all.takes w (List.mem_append_left _ member), fun isSum beginning first => ?_⟩, ?_, ?_⟩
    · exact all.inRange isSum beginning (first.trans (List.prefix_append vs [v]))
    · exact all.takes v (by simp)
    · exact fun isSum => all.inRange isSum _ List.prefix_rfl
  · rintro ⟨earlier, takes, last⟩
    refine ⟨fun w member => ?_, fun isSum beginning first => ?_⟩
    · rcases List.mem_append.mp member with before | here
      · exact earlier.takes w before
      · rwa [List.mem_singleton.mp here]
    · rcases List.prefix_concat_iff.mp first with rfl | before
      · exact last isSum
      · exact earlier.inRange isSum beginning before

/-- One more value after those that were folded: the step goes on with what the function computes of
    all, or refuses the value. -/
theorem step_exact (foldable : f.Foldable vs) (v : Value) :
    f.Foldable (vs ++ [v]) ∧ f.step v (f.exact vs) = .ok (f.exact (vs ++ [v])) ∨
      ∃ e, f.Refuses vs v e ∧ f.step v (f.exact vs) = .error e := by
  cases f with
  | boolOr =>
    cases v with
    | null => exact .inl ⟨foldable_concat.mpr ⟨foldable, trivial, nofun⟩, by simp [step, exact]⟩
    | bool a =>
      refine .inl ⟨foldable_concat.mpr ⟨foldable, trivial, nofun⟩, ?_⟩
      cases a <;> simp [step, exact]
    | int n => exact .inr ⟨_, .mistyped id, rfl⟩
  | sum =>
    cases v with
    | null =>
      have same : total (vs ++ [.null]) = total vs := by simp [total]
      have last := foldable.inRange rfl vs List.prefix_rfl
      refine .inl ⟨foldable_concat.mpr ⟨foldable, trivial, fun _ => same ▸ last⟩, ?_⟩
      rw [exact, exact, same]
      rfl
    | bool a => exact .inr ⟨_, .mistyped id, rfl⟩
    | int n =>
      have more : total (vs ++ [.int n]) = total vs + n := by simp [total]
      cases room : StreamQuery.inRange (total vs + n) with
      | true =>
        refine .inl ⟨foldable_concat.mpr ⟨foldable, trivial, fun _ => more ▸ inRange_iff.mp room⟩, ?_⟩
        rw [exact, exact, more, step, if_pos room]
      | false =>
        have out : total (vs ++ [.int n]) < minInt ∨ maxInt < total (vs ++ [.int n]) := by
          have outside := mt inRange_iff.mpr (Bool.eq_false_iff.mp room)
          omega
        refine .inr ⟨_, .overflow rfl trivial out, ?_⟩
        rw [exact, step, room]
        rfl

theorem Refuses.unique {e' : Error} (one : f.Refuses vs v e) (other : f.Refuses vs v e') : e = e' := by
  cases one with
  | mistyped no =>
    cases other with
    | mistyped _ => rfl
    | overflow _ takes _ => exact absurd takes no
  | overflow _ takes _ =>
    cases other with
    | mistyped no => exact absurd takes no
    | overflow _ _ _ => rfl

theorem Refuses.not_foldable (refused : f.Refuses vs v e) : ¬ f.Foldable (vs ++ [v]) := by
  intro all
  obtain ⟨_, takes, last⟩ := foldable_concat.mp all
  cases refused with
  | mistyped no => exact no takes
  | overflow isSum _ out =>
    have within := last isSum
    omega

theorem step_eq_ok (foldable : f.Foldable vs) :
    f.step v (f.exact vs) = .ok w ↔ f.Foldable (vs ++ [v]) ∧ w = f.exact (vs ++ [v]) := by
  rcases step_exact foldable v with ⟨all, stepped⟩ | ⟨e, refused, failed⟩
  · rw [stepped]
    exact ⟨fun same => ⟨all, (Except.ok.inj same).symm⟩, fun ⟨_, same⟩ => congrArg _ same.symm⟩
  · rw [failed]
    exact ⟨fun same => (nomatch same), fun ⟨all, _⟩ => absurd all refused.not_foldable⟩

theorem step_eq_error (foldable : f.Foldable vs) : f.step v (f.exact vs) = .error e ↔ f.Refuses vs v e := by
  rcases step_exact foldable v with ⟨all, stepped⟩ | ⟨e', refused, failed⟩
  · rw [stepped]
    exact ⟨fun same => (nomatch same), fun refused => absurd all refused.not_foldable⟩
  · rw [failed]
    exact ⟨fun same => Except.error.inj same ▸ refused, fun other => congrArg _ (refused.unique other)⟩

/-- Values are folded without an error if and only if they can be, and then to what the function
    computes of them. -/
theorem fold_eq_ok : ∀ {w}, f.fold vs = .ok w ↔ f.Foldable vs ∧ w = f.exact vs := by
  induction vs using List.reverseRecOn with
  | nil =>
    intro w
    have start : f.fold [] = .ok (f.exact []) := by cases f <;> rfl
    rw [start]
    exact ⟨fun same => ⟨foldable_nil f, (Except.ok.inj same).symm⟩, fun ⟨_, same⟩ => congrArg _ same.symm⟩
  | append_singleton vs v ih =>
    intro w
    unfold fold at ih ⊢
    rw [foldlM_concat_eq_ok]
    constructor
    · rintro ⟨state, earlier, last⟩
      obtain ⟨foldable, rfl⟩ := ih.mp earlier
      exact (step_eq_ok foldable).mp last
    · intro all
      have foldable := (foldable_concat.mp all.1).1
      exact ⟨f.exact vs, ih.mpr ⟨foldable, rfl⟩, (step_eq_ok foldable).mpr all⟩

theorem exact_perm (perm : vs.Perm ws) : f.exact vs = f.exact ws := by
  cases f with
  | boolOr => simp only [exact, perm.mem_iff]
  | sum => rw [exact, exact, total_perm perm]

end Aggregate

/-! ## Columns in lockstep -/

/-- Rows whose columns can be folded, each by the function at its place. -/
def ColumnsFoldable (functions : List Aggregate) (rows : List Record) : Prop :=
  ∀ i, ∀ f : Aggregate, functions[i]? = some f → f.Foldable (column i rows)

/-- What the functions compute of the columns of some rows. -/
def exactRecord (functions : List Aggregate) (rows : List Record) : Record :=
  functions.mapIdx fun i f => f.exact (column i rows)

variable {functions : List Aggregate} {rows : List Record} {row new : Record} {f : Aggregate}
  {v w : Value} {i : Nat} {e : Error}

theorem column_concat (here : row[i]? = some v) : column i (rows ++ [row]) = column i rows ++ [v] := by
  unfold column
  rw [List.filterMap_append]
  simp [here]

theorem columnsFoldable_nil (functions : List Aggregate) : ColumnsFoldable functions [] :=
  fun _ f _ => f.foldable_nil

theorem exactRecord_nil (functions : List Aggregate) :
    exactRecord functions [] = functions.map Aggregate.initial := by
  have start : ∀ f : Aggregate, f.exact [] = f.initial := fun f => by cases f <;> rfl
  refine List.ext_getElem? fun i => ?_
  simp [exactRecord, column, start]

theorem length_exactRecord : (exactRecord functions rows).length = functions.length := List.length_mapIdx

theorem exactRecord_at (function : functions[i]? = some f) :
    (exactRecord functions rows)[i]? = some (f.exact (column i rows)) := by
  rw [exactRecord, List.getElem?_mapIdx, function]
  rfl

theorem stepAt_exact (function : functions[i]? = some f) (here : row[i]? = some v) :
    Groups.stepAt functions row (exactRecord functions rows) i = some (f.step v (f.exact (column i rows))) := by
  simp [Groups.stepAt, function, here, exactRecord_at function]

theorem stepAt_eq_ok (foldable : ColumnsFoldable functions rows) (function : functions[i]? = some f)
    (here : row[i]? = some v) :
    Groups.stepAt functions row (exactRecord functions rows) i = some (.ok w) ↔
      f.Foldable (column i (rows ++ [row])) ∧ w = f.exact (column i (rows ++ [row])) := by
  rw [stepAt_exact function here, Option.some.injEq, Aggregate.step_eq_ok (foldable i f function), column_concat here]

theorem stepAt_eq_error (foldable : ColumnsFoldable functions rows) (function : functions[i]? = some f)
    (here : row[i]? = some v) :
    Groups.stepAt functions row (exactRecord functions rows) i = some (.error e) ↔
      f.Refuses (column i rows) v e := by
  rw [stepAt_exact function here, Option.some.injEq, Aggregate.step_eq_error (foldable i f function)]

theorem exists_value (wide : functions.length ≤ row.length) (function : functions[i]? = some f) :
    ∃ v, row[i]? = some v := by
  obtain ⟨less, _⟩ := List.getElem?_eq_some_iff.mp function
  exact ⟨row[i], List.getElem?_eq_getElem (Nat.lt_of_lt_of_le less wide)⟩

/-- One more row is folded if every column can be folded with it. -/
theorem stepStates_exact (foldable : ColumnsFoldable functions rows) (wide : functions.length ≤ row.length) :
    Groups.stepStates functions row (exactRecord functions rows) = (.ok (), new) ↔
      ColumnsFoldable functions (rows ++ [row]) ∧ new = exactRecord functions (rows ++ [row]) := by
  rw [Groups.stepStates_eq_ok wide length_exactRecord]
  constructor
  · intro all
    have each : ∀ i, ∀ f : Aggregate, functions[i]? = some f →
        f.Foldable (column i (rows ++ [row])) ∧ new[i]? = some (f.exact (column i (rows ++ [row]))) := by
      intro i f function
      obtain ⟨v, here⟩ := exists_value wide function
      obtain ⟨state, step, made⟩ := all.stepped i (List.getElem?_eq_some_iff.mp function).1
      obtain ⟨more, rfl⟩ := (stepAt_eq_ok foldable function here).mp step
      exact ⟨more, made⟩
    refine ⟨fun i f function => (each i f function).1, List.ext_getElem? fun i => ?_⟩
    cases function : functions[i]? with
    | some f => rw [(each i f function).2, exactRecord_at function]
    | none =>
      have out : functions.length ≤ i := List.getElem?_eq_none_iff.mp function
      rw [List.getElem?_eq_none (all.length ▸ out), List.getElem?_eq_none (length_exactRecord ▸ out)]
  · rintro ⟨more, rfl⟩
    refine ⟨fun i less => ?_, length_exactRecord⟩
    have function : functions[i]? = some functions[i] := List.getElem?_eq_getElem less
    obtain ⟨v, here⟩ := exists_value wide function
    exact ⟨_, (stepAt_eq_ok foldable function here).mpr ⟨more i _ function, rfl⟩, exactRecord_at function⟩

/-- One more row is refused by the first column that cannot be folded with it. -/
theorem stepStates_exact_error (foldable : ColumnsFoldable functions rows) (wide : functions.length ≤ row.length) :
    (Groups.stepStates functions row (exactRecord functions rows)).1 = .error e ↔
      ∃ i f v, functions[i]? = some f ∧ row[i]? = some v ∧ f.Refuses (column i rows) v e ∧
        ∀ j < i, ∀ f : Aggregate, functions[j]? = some f → f.Foldable (column j (rows ++ [row])) := by
  rw [Groups.stepStates_eq_error wide length_exactRecord]
  -- The functions and the row have the same places, so a step at a place is that of a function by a value.
  constructor
  · rintro ⟨i, failed, before⟩
    have function : functions[i]? = some _ := List.getElem?_eq_getElem (Groups.lt_of_stepAt failed)
    obtain ⟨v, here⟩ := exists_value wide function
    refine ⟨i, _, v, function, here, (stepAt_eq_error foldable function here).mp failed, fun j less f earlier => ?_⟩
    obtain ⟨v, here⟩ := exists_value wide earlier
    obtain ⟨state, step⟩ := before j less
    exact ((stepAt_eq_ok foldable earlier here).mp step).1
  · rintro ⟨i, f, v, function, here, refused, before⟩
    refine ⟨i, (stepAt_eq_error foldable function here).mpr refused, fun j less => ?_⟩
    have inside : j < functions.length := Nat.lt_trans less (List.getElem?_eq_some_iff.mp function).1
    have earlier : functions[j]? = some functions[j] := List.getElem?_eq_getElem inside
    obtain ⟨w, there⟩ := exists_value wide earlier
    exact ⟨_, (stepAt_eq_ok foldable earlier there).mpr ⟨before j less _ earlier, rfl⟩⟩

end StreamQuery
