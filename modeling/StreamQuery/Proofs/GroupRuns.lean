import StreamQuery.Proofs.Grouping
import StreamQuery.Proofs.SteppedStates

/-!
# Adding rows to groups

Rows are added to groups one after the other, and some of them may be refused. What a row does
depends on the states of its own group alone, and it changes no other group. So what becomes of a
group is decided by the rows of its key, in their order: `lookup_addAll` says which states it has
in the end, and `answers_of_group` what its rows are answered. A refused row leaves a trace in its
own group only, and none at all if it has the wrong width.
-/

namespace StreamQuery.Groups

/-- The groups after some rows were added, whether they were accepted or not. -/
def addAll (g : Groups) (rows : List (Record × List Value)) : Groups :=
  rows.foldl (fun g row => (g.add row.1 row.2).2) g

/-- Rows that are added one after the other, each with its answer. -/
def answers (g : Groups) : List (Record × List Value) → List (Record × List Value × Except Error Unit)
  | [] => []
  | (key, values) :: rows => (key, values, (g.add key values).1) :: (g.add key values).2.answers rows

/-- The rows that were accepted, among rows with their answers. -/
def accepted (answered : List (Record × List Value × Except Error Unit)) : List (Record × List Value) :=
  (answered.filter (·.2.2.isOk)).map fun (key, values, _) => (key, values)

/-- What a row does to its own group, which has no states before its first row. -/
def stepGroup (functions : List Aggregate) (values : List Value) (states : Option (List Value)) :
    Except Error Unit × Option (List Value) :=
  if values.length = functions.length then
    let (outcome, stepped) := stepStates functions values (states.getD (functions.map Aggregate.initial))
    (outcome, some stepped)
  else (.error (.arityMismatch functions.length values.length), states)

/-- The rows of one group, each with its answer. -/
def groupAnswers (functions : List Aggregate) (states : Option (List Value)) :
    List (List Value) → List (List Value × Except Error Unit)
  | [] => []
  | values :: rows =>
    (values, (stepGroup functions values states).1) ::
      groupAnswers functions (stepGroup functions values states).2 rows

/-- Groups that rows may have been added to: their keys ascend, and each has a state for every
    function. -/
structure WellFormed (functions : List Aggregate) (g : Groups) : Prop where
  ofFunctions : g.functions = functions
  ascending : Ascending (g.entries.map Prod.fst)
  lengths : ∀ key states, (key, states) ∈ g.entries → states.length = functions.length

variable {functions : List Aggregate} {g : Groups} {rows : List (Record × List Value)} {key : Record}
  {values : List Value}

/-! ## The states of a key -/

/-- Where keys ascend, a key is found with its own states. -/
theorem lookup_eq_some {β : Type} {entries : List (Record × β)} (ascending : Ascending (entries.map Prod.fst))
    {states : β} : entries.lookup key = some states ↔ (key, states) ∈ entries := by
  rw [List.lookup_eq_some_iff]
  constructor
  · rintro ⟨before, after, rfl, _⟩
    simp
  · intro member
    obtain ⟨before, after, rfl⟩ := List.append_of_mem member
    refine ⟨before, after, rfl, fun entry inside => ?_⟩
    rw [List.map_append, List.map_cons] at ascending
    have less := (List.pairwise_append.mp ascending).2.2 entry.1 (List.mem_map_of_mem inside) key (by simp)
    simpa using (ne_of_before less).symm

theorem IsEntry.eq_lookup {β : Type} {entries : List (Record × β)} (ascending : Ascending (entries.map Prod.fst))
    {initial old : β} (entry : IsEntry key initial entries old) : old = (entries.lookup key).getD initial := by
  rcases entry with member | ⟨absent, rfl⟩
  · rw [(lookup_eq_some ascending).mpr member]
    rfl
  · have none : entries.lookup key = none := by
      rw [Option.eq_none_iff_forall_ne_some]
      exact fun states found => absent (List.mem_map_of_mem ((lookup_eq_some ascending).mp found))
    rw [none]
    rfl

/-- Replacing an entry changes what is found at its key alone. -/
theorem Replaces.lookup {β : Type} {earlier later : List (Record × β)} {new : β}
    (replaces : Replaces key new earlier later) (before : Ascending (earlier.map Prod.fst))
    (after : Ascending (later.map Prod.fst)) (k : Record) : later.lookup k = if k = key then some new else earlier.lookup k := by
  refine Option.ext fun states => ?_
  rw [lookup_eq_some after, replaces k states]
  by_cases same : k = key
  · simp [same, eq_comm]
  · simp [same, lookup_eq_some before]

/-- A row is answered by the states of its own group, it changes them, and every other group stays. -/
theorem add_group (ascending : Ascending (g.entries.map Prod.fst)) (key : Record) (values : List Value) :
    (g.add key values).1 = (stepGroup g.functions values (g.entries.lookup key)).1 ∧
      ∀ k, (g.add key values).2.entries.lookup k =
        if k = key then (stepGroup g.functions values (g.entries.lookup key)).2 else g.entries.lookup k := by
  unfold stepGroup
  by_cases width : values.length = g.functions.length
  · obtain ⟨old, entry, answer, _, ordered, replaces⟩ := add_spec key ascending width
    rw [if_pos width, ← initialStates, ← entry.eq_lookup ascending]
    exact ⟨answer, replaces.lookup ascending ordered⟩
  · rw [if_neg width, add, if_neg width]
    refine ⟨rfl, fun k => ?_⟩
    by_cases same : k = key
    · rw [if_pos same, same]
    · rw [if_neg same]

/-! ## Runs of rows -/

theorem wellFormed_empty (functions : List Aggregate) : WellFormed functions (empty functions) where
  ofFunctions := rfl
  ascending := .nil
  lengths _ _ member := nomatch member

theorem WellFormed.entry (formed : WellFormed functions g) {old : List Value}
    (entry : IsEntry key g.initialStates g.entries old) : old.length = functions.length := by
  rcases entry with member | ⟨_, rfl⟩
  · exact formed.lengths key old member
  · rw [initialStates, List.length_map, formed.ofFunctions]

theorem WellFormed.add (formed : WellFormed functions g) (key : Record) (values : List Value) :
    WellFormed functions (g.add key values).2 := by
  by_cases width : values.length = g.functions.length
  · obtain ⟨old, entry, _, same, ordered, replaces⟩ := add_spec key formed.ascending width
    refine ⟨same.trans formed.ofFunctions, ordered, fun k states member => ?_⟩
    rcases (replaces k states).mp member with ⟨_, rfl⟩ | ⟨_, earlier⟩
    · rw [formed.ofFunctions] at width ⊢
      exact length_stepStates (Nat.le_of_eq width.symm) (formed.entry entry)
    · exact formed.lengths k states earlier
  · rw [Groups.add, if_neg width]
    exact formed

theorem WellFormed.addAll (formed : WellFormed functions g) (rows : List (Record × List Value)) :
    WellFormed functions (g.addAll rows) := by
  induction rows generalizing g with
  | nil => exact formed
  | cons row rest ih => exact ih (formed.add row.1 row.2)

/-- The states of a group after a run are those that its own rows make. -/
theorem lookup_addAll (formed : WellFormed functions g) (rows : List (Record × List Value)) (key : Record) :
    (g.addAll rows).entries.lookup key =
      (membersOf key rows).foldl (fun states values => (stepGroup functions values states).2)
        (g.entries.lookup key) := by
  -- The invariant is that the groups are well-formed; what the first row leaves is well-formed again.
  induction rows generalizing g with
  | nil => rfl
  | cons row rest ih =>
    obtain ⟨k, values⟩ := row
    have next := (add_group formed.ascending k values).2 key
    rw [formed.ofFunctions] at next
    rw [membersOf_cons]
    refine (ih (formed.add k values)).trans ?_
    rw [next]
    by_cases same : key = k
    · subst same
      rw [if_pos rfl, if_pos rfl, List.foldl_cons]
    · rw [if_neg same, if_neg same]

/-- The rows of a group are answered by its own states. -/
theorem answers_of_group (formed : WellFormed functions g) (rows : List (Record × List Value)) (key : Record) :
    membersOf key (g.answers rows) = groupAnswers functions (g.entries.lookup key) (membersOf key rows) := by
  induction rows generalizing g with
  | nil => rfl
  | cons row rest ih =>
    obtain ⟨k, values⟩ := row
    obtain ⟨answer, next⟩ := add_group formed.ascending k values
    specialize next key
    rw [formed.ofFunctions] at answer next
    rw [answers, membersOf_cons, membersOf_cons, ih (formed.add k values), next]
    by_cases same : key = k
    · subst same
      rw [if_pos rfl, if_pos rfl, if_pos rfl, groupAnswers, answer]
    · rw [if_neg same, if_neg same, if_neg same]

theorem rows_answers (rows : List (Record × List Value)) :
    ((g.answers rows).map fun (key, values, _) => (key, values)) = rows := by
  induction rows generalizing g with
  | nil => rfl
  | cons row rest ih => rw [answers, List.map_cons, ih]

/-! ## Refused rows -/

/-- If all rows of a key are accepted, leaving out the refused ones leaves them all. -/
theorem membersOf_accepted (clean : ∀ answered ∈ g.answers rows, answered.1 = key → answered.2.2 = .ok ()) :
    membersOf key (accepted (g.answers rows)) = membersOf key rows := by
  have all : membersOf key rows = membersOf key ((g.answers rows).map fun (key, values, _) => (key, values)) := by
    rw [rows_answers]
  rw [all]
  unfold accepted membersOf
  rw [List.filter_map, List.filter_map, List.filter_filter]
  refine congrArg _ (congrArg _ (List.filter_congr fun answered member => ?_))
  by_cases same : answered.1 = key
  · simp [same, clean answered member same, Except.isOk, Except.toBool]
  · simp [same]

theorem step_ne_arityMismatch {f : Aggregate} {v state : Value} {expected found : Nat} :
    f.step v state ≠ .error (.arityMismatch expected found) := by
  intro failed
  unfold Aggregate.step at failed
  split at failed
  · cases failed
  · cases failed
  · split_ifs at failed
    cases failed
  · cases failed

theorem BrokenOff.ne_arityMismatch {old new : List Value} {i : Nat} {e : Error}
    (broken : BrokenOff functions values old new i e) (expected found : Nat) : e ≠ .arityMismatch expected found := by
  rintro rfl
  obtain ⟨f, _, failed⟩ := Option.bind_eq_some_iff.mp broken.failed
  obtain ⟨v, _, failed⟩ := Option.bind_eq_some_iff.mp failed
  obtain ⟨state, _, failed⟩ := Option.bind_eq_some_iff.mp failed
  exact step_ne_arityMismatch (Option.some.inj failed)

/-- A refused row has the wrong width and changes nothing, or it breaks off the states of its group. -/
theorem WellFormed.refused (formed : WellFormed functions g) {e : Error} {later : Groups}
    (refused : g.add key values = (.error e, later)) :
    e = .arityMismatch functions.length values.length ∧ later = g ∨
      ∃ i old new, IsEntry key g.initialStates g.entries old ∧ BrokenOff functions values old new i e ∧
        Replaces key new g.entries later.entries := by
  by_cases width : values.length = g.functions.length
  · obtain ⟨old, entry, answer, _, _, replaces⟩ := add_spec key formed.ascending width
    rw [formed.ofFunctions] at width answer replaces
    rw [refused] at answer replaces
    rcases stepStates_spec (Nat.le_of_eq width.symm) (formed.entry entry) with
      ⟨new, result, _⟩ | ⟨i, e', new, result, broken⟩
    · rw [result] at answer
      cases answer
    · rw [result] at answer replaces
      cases answer
      exact .inr ⟨i, old, new, entry, broken, replaces⟩
  · rw [Groups.add, if_neg width, formed.ofFunctions] at refused
    cases refused
    exact .inl ⟨rfl, rfl⟩

/-- A refused row damages what it was folding and nothing else. After any run, also one with refused
    rows: a row that is refused for its width leaves the groups as they are. Any other refused row
    breaks off at the first step that fails: its group exists afterwards, its states before that step
    are the stepped ones, that of the step is NULL, those behind it and all other groups are as they
    were. So a run gives every key whose rows are all accepted the result that the run of the accepted
    rows gives it. -/
theorem add_refused (functions : List Aggregate) (rows : List (Record × List Value)) :
    (∀ g later key values e, (empty functions).addAll rows = g → g.add key values = (.error e, later) →
      ((∃ expected found, e = .arityMismatch expected found) → later = g) ∧
      ((∀ expected found, e ≠ .arityMismatch expected found) →
        later.functions = functions ∧ Ascending (later.entries.map Prod.fst) ∧
          ∃ i old new, IsEntry key (functions.map Aggregate.initial) g.entries old ∧
            BrokenOff functions values old new i e ∧ Replaces key new g.entries later.entries)) ∧
    ∀ key, (∀ answered ∈ (empty functions).answers rows, answered.1 = key → answered.2.2 = .ok ()) →
      ((empty functions).addAll rows).results.lookup key =
        ((empty functions).addAll (accepted ((empty functions).answers rows))).results.lookup key := by
  have formed := wellFormed_empty functions
  refine ⟨?_, fun key clean => ?_⟩
  · intro g later key values e run refused
    have reached : WellFormed functions g := run ▸ formed.addAll rows
    have after : WellFormed functions later := by simpa only [refused] using reached.add key values
    rcases reached.refused refused with ⟨width, same⟩ | ⟨i, old, new, entry, broken, replaces⟩
    · exact ⟨fun _ => same, fun other => absurd width (other _ _)⟩
    · refine ⟨fun ⟨expected, found, width⟩ => absurd width (broken.ne_arityMismatch expected found), fun _ => ?_⟩
      rw [initialStates, reached.ofFunctions] at entry
      exact ⟨after.ofFunctions, after.ascending, i, old, new, entry, broken, replaces⟩
  · calc ((empty functions).addAll rows).results.lookup key
      _ = _ := lookup_addAll formed rows key
      _ = _ := by rw [membersOf_accepted clean]
      _ = _ := (lookup_addAll formed _ key).symm

/-- The theorem after a run whose last row was refused, at a row that is refused at its second value
    and makes a new group, and for a key all whose rows were accepted. -/
theorem add_refused_new_group :
    let functions : List Aggregate := [.sum, .boolOr, .sum]
    let rows : List (Record × List Value) := [([.int 1], [.int 5, .bool true, .int 1]),
      ([.int 2], [.int 1, .null, .null]), ([.int 1], [.int 2, .int 7, .int 0])]
    let g : Groups := (empty functions).addAll rows
    let e : Error := .typeMismatch (.argument .boolOr) (.value (.int 0))
    let later : Groups := ⟨functions, [([.int 1], [.int 7, .null, .int 1]), ([.int 2], [.int 1, .bool false, .int 0]),
      ([.int 3], [.int 4, .null, .int 0])]⟩
    g.add [.int 3] [.int 4, .int 0, .int 9] = (.error e, later) ∧
      (∀ expected found, e ≠ .arityMismatch expected found) ∧
      (∃ i old new, IsEntry [.int 3] [.int 0, .bool false, .int 0] g.entries old ∧
        BrokenOff functions [.int 4, .int 0, .int 9] old new i e ∧ Replaces [.int 3] new g.entries later.entries) ∧
      (∀ answered ∈ (empty functions).answers rows, answered.1 = [.int 2] → answered.2.2 = .ok ()) ∧
      g.results.lookup [.int 2] = some [.int 1, .bool false, .int 0] := by
  intro functions rows g e later
  have refused : g.add [.int 3] [.int 4, .int 0, .int 9] = (.error e, later) := rfl
  have clean : ∀ answered ∈ (empty functions).answers rows, answered.1 = [.int 2] → answered.2.2 = .ok () := by
    have made : (empty functions).answers rows = [([.int 1], [.int 5, .bool true, .int 1], .ok ()),
      ([.int 2], [.int 1, .null, .null], .ok ()),
      ([.int 1], [.int 2, .int 7, .int 0], .error (.typeMismatch (.argument .boolOr) (.value (.int 7))))] := rfl
    rw [made]
    simp
  obtain ⟨single, others⟩ := add_refused functions rows
  refine ⟨refused, nofun, ((single g later _ _ e rfl refused).2 nofun).2.2, clean, ?_⟩
  exact (others [.int 2] clean).trans rfl

end StreamQuery.Groups
