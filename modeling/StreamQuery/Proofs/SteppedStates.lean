import StreamQuery.Group

/-!
# Stepping the states of a group

A row steps the states of its group from left to right, each by the value at its place. If every
step succeeds, the states are the stepped ones. Otherwise the states before the first step that
fails are the stepped ones, its own state is NULL, and those behind it are as they were.
-/

namespace StreamQuery.Groups

/-- The step at a place: that of its function, by its value from its state. -/
def stepAt (functions : List Aggregate) (values states : List Value) (i : Nat) : Option (Except Error Value) := do
  let f ← functions[i]?
  let v ← values[i]?
  let state ← states[i]?
  some (f.step v state)

/-- What a row makes of the states of a group if every step succeeds. -/
structure AllStepped (functions : List Aggregate) (values old new : List Value) : Prop where
  stepped : ∀ i < functions.length, ∃ state, stepAt functions values old i = some (.ok state) ∧ new[i]? = some state
  length : new.length = functions.length

/-- What a row leaves of the states of a group if the step at a place is the first to fail. -/
structure BrokenOff (functions : List Aggregate) (values old new : List Value) (i : Nat) (e : Error) : Prop where
  failed : stepAt functions values old i = some (.error e)
  stepped : ∀ j < i, ∃ state, stepAt functions values old j = some (.ok state) ∧ new[j]? = some state
  null : new[i]? = some .null
  unchanged : ∀ j, i < j → new[j]? = old[j]?
  length : new.length = functions.length

variable {functions : List Aggregate} {values old new : List Value} {f : Aggregate} {v state w : Value} {e : Error}
  {i : Nat}

theorem lt_of_stepAt {outcome : Except Error Value} (step : stepAt functions values old i = some outcome) :
    i < functions.length := by
  obtain ⟨f, function, _⟩ := Option.bind_eq_some_iff.mp step
  exact (List.getElem?_eq_some_iff.mp function).1

/-- The first step has succeeded, and the rest of the states goes the same way. -/
theorem stepStates_of_ok (stepped : f.step v state = .ok w) :
    stepStates (f :: functions) (v :: values) (state :: old) =
      ((stepStates functions values old).1, w :: (stepStates functions values old).2) := by
  rw [stepStates, stepped]

theorem stepStates_of_error (failed : f.step v state = .error e) :
    stepStates (f :: functions) (v :: values) (state :: old) = (.error e, .null :: old) := by
  rw [stepStates, failed]

theorem AllStepped.cons (first : f.step v state = .ok w) (rest : AllStepped functions values old new) :
    AllStepped (f :: functions) (v :: values) (state :: old) (w :: new) where
  stepped i less := by
    cases i with
    | zero => exact ⟨w, congrArg some first, rfl⟩
    | succ i => exact rest.stepped i (Nat.lt_of_succ_lt_succ less)
  length := congrArg Nat.succ rest.length

theorem BrokenOff.cons (first : f.step v state = .ok w) (rest : BrokenOff functions values old new i e) :
    BrokenOff (f :: functions) (v :: values) (state :: old) (w :: new) (i + 1) e where
  failed := rest.failed
  stepped j less := by
    cases j with
    | zero => exact ⟨w, congrArg some first, rfl⟩
    | succ j => exact rest.stepped j (Nat.lt_of_succ_lt_succ less)
  null := rest.null
  unchanged j less := by
    cases j with
    | zero => cases less
    | succ j => exact rest.unchanged j (Nat.lt_of_succ_lt_succ less)
  length := congrArg Nat.succ rest.length

theorem brokenOff_first (failed : f.step v state = .error e) (length : old.length = functions.length) :
    BrokenOff (f :: functions) (v :: values) (state :: old) (.null :: old) 0 e where
  failed := congrArg some failed
  stepped j less := by cases less
  null := rfl
  unchanged j less := by
    cases j with
    | zero => cases less
    | succ j => rfl
  length := congrArg Nat.succ length

/-- What stepping the states of a group makes of them. -/
theorem stepStates_spec (wide : functions.length ≤ values.length) (length : old.length = functions.length) :
    (∃ new, stepStates functions values old = (.ok (), new) ∧ AllStepped functions values old new) ∨
      ∃ i e new, stepStates functions values old = (.error e, new) ∧ BrokenOff functions values old new i e := by
  induction functions generalizing values old with
  | nil =>
    obtain rfl := List.length_eq_zero_iff.mp length
    exact .inl ⟨[], rfl, fun i less => (nomatch less), rfl⟩
  | cons f functions ih =>
    obtain ⟨v, values, rfl⟩ := List.exists_cons_of_length_pos (Nat.lt_of_lt_of_le (Nat.succ_pos _) wide)
    obtain ⟨state, old, rfl⟩ := List.exists_cons_of_length_eq_add_one length
    have length := Nat.succ.inj length
    cases first : f.step v state with
    | error e => exact .inr ⟨0, e, _, stepStates_of_error first, brokenOff_first first length⟩
    | ok w =>
      rw [stepStates_of_ok first]
      rcases ih (Nat.le_of_succ_le_succ wide) length with ⟨new, rest, stepped⟩ | ⟨i, e, new, rest, broken⟩
      · exact .inl ⟨w :: new, by rw [rest], stepped.cons first⟩
      · exact .inr ⟨i + 1, e, w :: new, by rw [rest], broken.cons first⟩

theorem length_stepStates (wide : functions.length ≤ values.length) (length : old.length = functions.length) :
    (stepStates functions values old).2.length = functions.length := by
  rcases stepStates_spec wide length with ⟨new, result, stepped⟩ | ⟨i, e, new, result, broken⟩
  · rw [result]
    exact stepped.length
  · rw [result]
    exact broken.length

theorem AllStepped.unique {other : List Value} (one : AllStepped functions values old new)
    (two : AllStepped functions values old other) : new = other := by
  refine List.ext_getElem? fun i => ?_
  by_cases less : i < functions.length
  · obtain ⟨state, step, here⟩ := one.stepped i less
    obtain ⟨state', step', there⟩ := two.stepped i less
    rw [here, there, ← Except.ok.inj (Option.some.inj (step.symm.trans step'))]
  · rw [List.getElem?_eq_none (by rw [one.length]; omega), List.getElem?_eq_none (by rw [two.length]; omega)]

/-- The states are stepped without error if and only if every step succeeds. -/
theorem stepStates_eq_ok (wide : functions.length ≤ values.length) (length : old.length = functions.length) :
    stepStates functions values old = (.ok (), new) ↔ AllStepped functions values old new := by
  rcases stepStates_spec wide length with ⟨made, result, stepped⟩ | ⟨i, e, left, result, broken⟩
  · rw [result]
    constructor
    · intro same
      rw [← (Prod.mk.inj same).2]
      exact stepped
    · intro other
      rw [stepped.unique other]
  · rw [result]
    refine ⟨fun same => (nomatch same), fun stepped => ?_⟩
    obtain ⟨state, step, _⟩ := stepped.stepped i (lt_of_stepAt broken.failed)
    rw [broken.failed] at step
    cases step

/-- Stepping the states fails as the first step that fails, and leaves them broken off there. -/
theorem stepStates_eq_error (wide : functions.length ≤ values.length) (length : old.length = functions.length) :
    (stepStates functions values old).1 = .error e ↔
      ∃ i, stepAt functions values old i = some (.error e) ∧
        ∀ j < i, ∃ state, stepAt functions values old j = some (.ok state) := by
  rcases stepStates_spec wide length with ⟨made, result, stepped⟩ | ⟨i, e', left, result, broken⟩
  · rw [result]
    refine ⟨fun same => (nomatch same), fun ⟨i, failed, _⟩ => ?_⟩
    obtain ⟨state, step, _⟩ := stepped.stepped i (lt_of_stepAt failed)
    rw [failed] at step
    cases step
  · rw [result]
    constructor
    · intro same
      rw [← Except.error.inj same]
      exact ⟨i, broken.failed, fun j less => (broken.stepped j less).imp fun _ step => step.1⟩
    · rintro ⟨k, failed, before⟩
      rcases Nat.lt_trichotomy i k with less | rfl | less
      · -- The step at `i` has failed, so a step behind it is not the first to fail.
        obtain ⟨state, step⟩ := before i less
        rw [broken.failed] at step
        cases step
      · rw [broken.failed] at failed
        exact congrArg Except.error (Except.error.inj (Option.some.inj failed))
      · obtain ⟨state, step, _⟩ := broken.stepped k less
        rw [failed] at step
        cases step

/-- Values behind those that the functions fold do not matter. -/
theorem stepStates_take (functions : List Aggregate) (values old : List Value) :
    stepStates functions (values.take functions.length) old = stepStates functions values old := by
  induction functions generalizing values old with
  | nil => rfl
  | cons f functions ih =>
    cases values with
    | nil => rfl
    | cons v values =>
      cases old with
      | nil => rfl
      | cons state old =>
        rw [List.length_cons, List.take_succ_cons]
        cases first : f.step v state with
        | error e => rw [stepStates_of_error first, stepStates_of_error first]
        | ok w => rw [stepStates_of_ok first, stepStates_of_ok first, ih]

end StreamQuery.Groups
