import StreamQuery.Group
import StreamQuery.Proofs.ValueOrder

/-!
# Groups as a map

The entries of the groups are a map from keys to states: the keys strictly ascend, a change
concerns the entry of one key, and every other entry stays. `updateEntry_split` says what a
change does; the rest follows from it.
-/

namespace StreamQuery

namespace Groups

variable {α β : Type} {entries : List (Record × β)}

/-- The entry of a key among others in the order of their keys: `old` is the entry if there is
    one, and the given beginning where there is none. -/
inductive EntryAt (key : Record) (initial : β) (before after : List (Record × β)) :
    List (Record × β) → β → Prop where
  | present (old : β) : EntryAt key initial before after (before ++ (key, old) :: after) old
  | absent : EntryAt key initial before after (before ++ after) initial

/-- A change puts what it makes between the smaller and the greater keys. -/
theorem updateEntry_split (key : Record) (initial : β) (change : β → α × β)
    (ascending : Ascending (entries.map Prod.fst)) :
    ∃ before after old, EntryAt key initial before after entries old ∧
      (∀ entry ∈ before, Record.Before entry.1 key) ∧ (∀ entry ∈ after, Record.Before key entry.1) ∧
      updateEntry key initial change entries = ((change old).1, before ++ (key, (change old).2) :: after) := by
  induction entries with
  | nil => exact ⟨[], [], initial, .absent, by simp, by simp, rfl⟩
  | cons entry rest ih =>
    obtain ⟨k, old⟩ := entry
    obtain ⟨first, ascendingRest⟩ := List.pairwise_cons.mp ascending
    have greater : ∀ entry ∈ rest, Record.Before k entry.1 :=
      fun entry member => first entry.1 (List.mem_map_of_mem member)
    unfold updateEntry
    cases order : compare key k with
    | lt =>
      refine ⟨[], (k, old) :: rest, initial, .absent, by simp, fun entry member => ?_, rfl⟩
      rcases List.mem_cons.mp member with rfl | later
      · exact compare_record_eq_lt.mp order
      · have further := compare_record_eq_lt.mpr (greater entry later)
        exact compare_record_eq_lt.mp (Std.TransCmp.lt_trans order further)
    | eq =>
      have same : key = k := Std.LawfulEqOrd.eq_of_compare order
      subst same
      exact ⟨[], rest, old, .present old, by simp, greater, rfl⟩
    | gt =>
      obtain ⟨before, after, found, entryAt, small, great, result⟩ := ih ascendingRest
      refine ⟨(k, old) :: before, after, found, ?_, fun entry member => ?_, great, by rw [result]; rfl⟩
      · cases entryAt with
        | present => exact .present found
        | absent => exact .absent
      · rcases List.mem_cons.mp member with rfl | later
        · exact compare_record_eq_lt.mp (Std.OrientedCmp.gt_iff_lt.mp order)
        · exact small entry later

/-- What is changed at a key in a list of entries. -/
def IsEntry (key : Record) (initial : β) (entries : List (Record × β)) (old : β) : Prop :=
  (key, old) ∈ entries ∨ key ∉ entries.map Prod.fst ∧ old = initial

/-- The later entries are the earlier ones, but for the key, whose entry is the given one. -/
def Replaces (key : Record) (new : β) (earlier later : List (Record × β)) : Prop :=
  ∀ k states, (k, states) ∈ later ↔ k = key ∧ states = new ∨ k ≠ key ∧ (k, states) ∈ earlier

theorem Replaces.keys {key : Record} {new : β} {earlier later : List (Record × β)}
    (replaces : Replaces key new earlier later) (k : Record) :
    k ∈ later.map Prod.fst ↔ k = key ∨ k ∈ earlier.map Prod.fst := by
  constructor
  · intro member
    obtain ⟨⟨k, states⟩, inside, rfl⟩ := List.mem_map.mp member
    rcases (replaces k states).mp inside with ⟨same, _⟩ | ⟨_, before⟩
    · exact .inl same
    · exact .inr (List.mem_map_of_mem before)
  · intro member
    by_cases same : k = key
    · exact List.mem_map.mpr ⟨_, (replaces k _).mpr (.inl ⟨same, rfl⟩), rfl⟩
    · obtain ⟨⟨k, states⟩, before, rfl⟩ := List.mem_map.mp (member.resolve_left same)
      exact List.mem_map_of_mem ((replaces k states).mpr (.inr ⟨same, before⟩))

/-- An entry between those of the smaller and of the greater keys keeps the order. -/
theorem ascending_between {key : Record} (new : β) {before after : List (Record × β)}
    (small : ∀ entry ∈ before, Record.Before entry.1 key) (great : ∀ entry ∈ after, Record.Before key entry.1)
    (ordered : Ascending ((before ++ after).map Prod.fst)) :
    Ascending ((before ++ (key, new) :: after).map Prod.fst) := by
  simp only [Ascending, List.map_append, List.map_cons, List.pairwise_append, List.pairwise_cons,
    List.mem_cons, List.mem_map] at ordered ⊢
  obtain ⟨left, right, across⟩ := ordered
  refine ⟨left, ⟨?_, right⟩, ?_⟩
  · rintro _ ⟨entry, member, rfl⟩
    exact great entry member
  · rintro a ⟨entry, member, rfl⟩ b (rfl | later)
    · exact small entry member
    · exact across _ ⟨entry, member, rfl⟩ b later

/-- A change works on the entry of its key and puts what it makes in its place; it leaves every
    other entry, and the keys stay in order. -/
theorem updateEntry_spec (key : Record) (initial : β) (change : β → α × β)
    (ascending : Ascending (entries.map Prod.fst)) :
    ∃ old, IsEntry key initial entries old ∧
      (updateEntry key initial change entries).1 = (change old).1 ∧
      Ascending ((updateEntry key initial change entries).2.map Prod.fst) ∧
      Replaces key (change old).2 entries (updateEntry key initial change entries).2 := by
  obtain ⟨before, after, old, entryAt, small, great, result⟩ :=
    updateEntry_split key initial change ascending
  have notBefore : ∀ entry ∈ before, entry.1 ≠ key := fun entry member => ne_of_before (small entry member)
  have notAfter : ∀ entry ∈ after, entry.1 ≠ key := fun entry member => (ne_of_before (great entry member)).symm
  have others : ∀ k states, k ≠ key →
      ((k, states) ∈ before ++ after ↔ (k, states) ∈ entries) := by
    intro k states other
    cases entryAt with
    | present => simp [other]
    | absent => rfl
  have ordered : Ascending ((before ++ after).map Prod.fst) := by
    cases entryAt with
    | present => exact ascending.sublist (by simp)
    | absent => exact ascending
  refine ⟨old, ?_, by rw [result], ?_, fun k states => ?_⟩
  · cases entryAt with
    | present => exact .inl (by simp)
    | absent =>
      refine .inr ⟨fun member => ?_, rfl⟩
      obtain ⟨entry, inside, same⟩ := List.mem_map.mp member
      rcases List.mem_append.mp inside with left | right
      · exact notBefore entry left same
      · exact notAfter entry right same
  · rw [result]
    exact ascending_between _ small great ordered
  · rw [result]
    by_cases same : k = key
    · subst same
      have left : (k, states) ∉ before := fun member => notBefore _ member rfl
      have right : (k, states) ∉ after := fun member => notAfter _ member rfl
      simp [left, right]
    · rw [← others k states same]
      simp [same]

/-- Folding a row of the right width steps the states of its key, whatever comes of it, and
    leaves every other group. -/
theorem add_spec {g : Groups} {values : List Value} (key : Record)
    (ascending : Ascending (g.entries.map Prod.fst))
    (width : values.length = g.functions.length) :
    ∃ old, IsEntry key g.initialStates g.entries old ∧
      (g.add key values).1 = (stepStates g.functions values old).1 ∧
      (g.add key values).2.functions = g.functions ∧
      Ascending ((g.add key values).2.entries.map Prod.fst) ∧
      Replaces key (stepStates g.functions values old).2 g.entries (g.add key values).2.entries := by
  obtain ⟨old, entry, answer, ordered, replaces⟩ :=
    updateEntry_spec key g.initialStates (stepStates g.functions values) ascending
  unfold add
  rw [if_pos width]
  exact ⟨old, entry, answer, rfl, ordered, replaces⟩

end Groups

end StreamQuery
