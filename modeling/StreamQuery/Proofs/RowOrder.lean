import StreamQuery.Proofs.AggregateFolds
import StreamQuery.Proofs.GroupRuns

/-!
# The order in which rows are added

The results of groups do not depend on the order of the rows. How the rows of different groups lie
between each other never matters: it changes neither the results nor whether a row is refused. In
what order the rows of one group come may decide whether they are accepted, for a sum may leave its
range on the way; but where both orders are accepted, they have the same results.
-/

namespace StreamQuery.Groups

/-- Rows that are all accepted, one after the other. -/
def AllAccepted (g : Groups) (rows : List (Record × List Value)) : Prop :=
  ∀ answered ∈ g.answers rows, answered.2.2 = .ok ()

/-- The results of some rows: each key that occurs once, in increasing order, with the folds of the
    columns of its own rows. -/
structure IsSummary (functions : List Aggregate) (rows : List (Record × List Value))
    (results : List (Record × Record)) : Prop where
  ascending : Ascending (results.map Prod.fst)
  keys : ∀ key, key ∈ results.map Prod.fst ↔ key ∈ rows.map Prod.fst
  lengths : ∀ result ∈ results, result.2.length = functions.length
  folds : ∀ result ∈ results, ∀ i, ∀ f : Aggregate, functions[i]? = some f →
    ∃ v, result.2[i]? = some v ∧ f.fold (column i (membersOf result.1 rows)) = .ok v

/-- The states of a group after some rows: what the functions compute of their columns, and none
    before the first row. -/
def groupStates (functions : List Aggregate) (members : List Record) : Option (List Value) :=
  if members = [] then none else some (exactRecord functions members)

variable {functions : List Aggregate} {rows others : List (Record × List Value)} {members before : List Record}
  {values : List Value} {key : Record} {states : Option (List Value)}

/-! ## One group -/

theorem groupStates_getD : (groupStates functions members).getD (functions.map Aggregate.initial) =
    exactRecord functions members := by
  by_cases none : members = []
  · subst none
    exact (exactRecord_nil functions).symm
  · rw [groupStates, if_neg none]
    rfl

theorem groupStates_concat : groupStates functions (members ++ [values]) =
    some (exactRecord functions (members ++ [values])) := if_neg (by simp)

theorem stepGroup_eq_ok (foldable : ColumnsFoldable functions members)
    (stepped : stepGroup functions values (groupStates functions members) = (.ok (), states)) :
    ColumnsFoldable functions (members ++ [values]) ∧ states = groupStates functions (members ++ [values]) := by
  unfold stepGroup at stepped
  by_cases width : values.length = functions.length
  · rw [if_pos width, groupStates_getD] at stepped
    obtain ⟨outcome, rfl⟩ := Prod.mk.inj stepped
    obtain ⟨more, made⟩ := (stepStates_exact foldable (Nat.le_of_eq width.symm)).mp (Prod.ext outcome rfl)
    exact ⟨more, by rw [groupStates_concat, ← made]⟩
  · rw [if_neg width] at stepped
    cases stepped

theorem foldl_stepGroup (members : List Record) (foldable : ColumnsFoldable functions before)
    (all : ∀ answered ∈ groupAnswers functions (groupStates functions before) members, answered.2 = .ok ()) :
    ColumnsFoldable functions (before ++ members) ∧
      members.foldl (fun states values => (stepGroup functions values states).2) (groupStates functions before) =
        groupStates functions (before ++ members) := by
  -- By induction on the rows still to come; the invariant is that those before them can be folded.
  induction members generalizing before with
  | nil => exact ⟨by rwa [List.append_nil], by rw [List.append_nil]; rfl⟩
  | cons values rest ih =>
    rw [groupAnswers, List.forall_mem_cons] at all
    have step : stepGroup functions values (groupStates functions before) =
        (.ok (), (stepGroup functions values (groupStates functions before)).2) := Prod.ext all.1 rfl
    obtain ⟨more, made⟩ := stepGroup_eq_ok foldable step
    rw [made] at all
    rw [List.foldl_cons, made, List.append_cons]
    exact ih more all.2

/-! ## All groups -/

/-- Rows are all accepted if those of each group are. -/
theorem allAccepted_iff : AllAccepted (empty functions) rows ↔
    ∀ key, ∀ answered ∈ groupAnswers functions none (membersOf key rows), answered.2 = .ok () := by
  have group : ∀ key, membersOf key ((empty functions).answers rows) =
      groupAnswers functions none (membersOf key rows) := answers_of_group (wellFormed_empty functions) rows
  constructor
  · intro all key answered member
    rw [← group key, mem_membersOf] at member
    exact all _ member
  · rintro each ⟨key, answered⟩ member
    exact each key answered (by rwa [← group key, mem_membersOf])

/-- After accepted rows, a group has what the functions compute of the columns of its own rows. -/
theorem lookup_of_allAccepted (all : AllAccepted (empty functions) rows) (key : Record) :
    ColumnsFoldable functions (membersOf key rows) ∧
      ((empty functions).addAll rows).entries.lookup key = groupStates functions (membersOf key rows) := by
  rw [lookup_addAll (wellFormed_empty functions)]
  exact foldl_stepGroup (membersOf key rows) (columnsFoldable_nil functions) (allAccepted_iff.mp all key)

theorem eq_of_lookup {β : Type} {entries found : List (Record × β)} (left : Ascending (entries.map Prod.fst))
    (right : Ascending (found.map Prod.fst)) (same : ∀ key, entries.lookup key = found.lookup key) :
    entries = found := by
  have nodup : ∀ {l : List (Record × β)}, Ascending (l.map Prod.fst) → l.Nodup := fun ascending =>
    List.Pairwise.of_map Prod.fst (fun _ _ differ same => differ (congrArg _ same)) (ascending_nodup ascending)
  -- Both have the same members, and their keys leave one order for them.
  have perm : entries.Perm found := (List.perm_ext_iff_of_nodup (nodup left) (nodup right)).mpr fun entry => by
    rw [← lookup_eq_some left, ← lookup_eq_some right, same]
  refine perm.eq_of_pairwise (fun a b _ _ less greater => ?_) (List.pairwise_map.mp left) (List.pairwise_map.mp right)
  exact absurd greater (not_before less)

/-- Groups of the same functions are the same if every key has the same states in them. -/
theorem WellFormed.eq_of_lookup {g h : Groups} (one : WellFormed functions g) (other : WellFormed functions h)
    (same : ∀ key, g.entries.lookup key = h.entries.lookup key) : g = h := by
  have entries := Groups.eq_of_lookup one.ascending other.ascending same
  obtain ⟨_, _⟩ := g
  obtain ⟨_, _⟩ := h
  obtain rfl := one.ofFunctions
  obtain rfl := other.ofFunctions
  exact congrArg _ entries

theorem exactRecord_perm {columns : List Record} (perm : members.Perm columns) :
    exactRecord functions members = exactRecord functions columns := by
  unfold exactRecord
  have each : ∀ i, ∀ f : Aggregate, f.exact (column i members) = f.exact (column i columns) :=
    fun i f => f.exact_perm (perm.filterMap _)
  simp only [each]

theorem groupStates_perm {columns : List Record} (perm : members.Perm columns) :
    groupStates functions members = groupStates functions columns := by
  by_cases none : members = []
  · subst none
    rw [List.nil_perm.mp perm]
  · have other : columns ≠ [] := fun empty => none (List.perm_nil.mp (empty ▸ perm))
    rw [groupStates, groupStates, if_neg none, if_neg other, exactRecord_perm perm]

theorem isSummary_results (all : AllAccepted (empty functions) rows) :
    IsSummary functions rows ((empty functions).addAll rows).results := by
  have ascending := ((wellFormed_empty functions).addAll rows).ascending
  have group : ∀ {key record}, (key, record) ∈ ((empty functions).addAll rows).results ↔
      membersOf key rows ≠ [] ∧ record = exactRecord functions (membersOf key rows) := by
    intro key record
    rw [results, ← lookup_eq_some ascending, (lookup_of_allAccepted all key).2, groupStates]
    by_cases none : membersOf key rows = []
    · simp [none]
    · simp [none, eq_comm]
  refine ⟨ascending, fun key => ?_, ?_, ?_⟩
  · refine Iff.trans ⟨?_, ?_⟩ (not_iff_comm.mp membersOf_eq_nil.symm)
    · intro member
      obtain ⟨⟨k, record⟩, inside, rfl⟩ := List.mem_map.mp member
      exact (group.mp inside).1
    · exact fun nonempty => List.mem_map.mpr ⟨(key, _), group.mpr ⟨nonempty, rfl⟩, rfl⟩
  · rintro ⟨key, record⟩ member
    obtain ⟨_, rfl⟩ := group.mp member
    exact length_exactRecord
  · rintro ⟨key, record⟩ member i f function
    obtain ⟨_, rfl⟩ := group.mp member
    have foldable := (lookup_of_allAccepted all key).1 i f function
    exact ⟨_, exactRecord_at function, Aggregate.fold_eq_ok.mpr ⟨foldable, rfl⟩⟩

/-- The results do not depend on the order of the rows. Two orders of the same rows that are both
    accepted throughout have the same results, also as one group. If the rows of each key come in
    the same order in both, one is accepted throughout if and only if the other is, the results are
    the same in any case, and those of accepted rows are the folds of the rows of each key. -/
theorem results_of_reordered (functions : List Aggregate) (rows others : List (Record × List Value)) :
    (rows.Perm others → AllAccepted (empty functions) rows → AllAccepted (empty functions) others →
      ((empty functions).addAll rows).results = ((empty functions).addAll others).results ∧
      ((empty functions).addAll rows).resultsOfOne = ((empty functions).addAll others).resultsOfOne) ∧
    ((∀ key, membersOf key rows = membersOf key others) →
      (AllAccepted (empty functions) rows ↔ AllAccepted (empty functions) others) ∧
      ((empty functions).addAll rows).results = ((empty functions).addAll others).results ∧
      (AllAccepted (empty functions) rows → IsSummary functions rows ((empty functions).addAll rows).results)) := by
  have formed := wellFormed_empty functions
  constructor
  · intro perm one other
    have same : (empty functions).addAll rows = (empty functions).addAll others := by
      refine (formed.addAll rows).eq_of_lookup (formed.addAll others) fun key => ?_
      rw [(lookup_of_allAccepted one key).2, (lookup_of_allAccepted other key).2]
      exact groupStates_perm ((perm.filter _).map _)
    rw [same]
    exact ⟨rfl, rfl⟩
  · intro members
    have same : (empty functions).addAll rows = (empty functions).addAll others := by
      refine (formed.addAll rows).eq_of_lookup (formed.addAll others) fun key => ?_
      rw [lookup_addAll formed, lookup_addAll formed, members key]
    refine ⟨?_, by rw [same], isSummary_results⟩
    rw [allAccepted_iff, allAccepted_iff]
    simp only [members]

/-- The theorem at rows of two groups: turned round, where the sum of the second group stays in range
    both ways, and one group behind the other. -/
theorem results_of_reordered_turned :
    let functions : List Aggregate := [.sum, .boolOr]
    let rows : List (Record × List Value) := [([.null], [.int maxInt, .null]), ([.int 1], [.int 5, .bool true]),
      ([.null], [.int (-1), .bool false]), ([.int 1], [.null, .bool false])]
    let turned : List (Record × List Value) := rows.reverse
    let grouped : List (Record × List Value) := [([.int 1], [.int 5, .bool true]), ([.int 1], [.null, .bool false]),
      ([.null], [.int maxInt, .null]), ([.null], [.int (-1), .bool false])]
    rows.Perm turned ∧ AllAccepted (empty functions) rows ∧ AllAccepted (empty functions) turned ∧
      ((empty functions).addAll turned).results =
        [([.int 1], [.int 5, .bool true]), ([.null], [.int (maxInt - 1), .bool false])] ∧
      (∀ key, membersOf key rows = membersOf key grouped) ∧ AllAccepted (empty functions) grouped ∧
      IsSummary functions rows ((empty functions).addAll grouped).results := by
  intro functions rows turned grouped
  have perm : rows.Perm turned := (List.reverse_perm rows).symm
  have allAccepted : ∀ {rows}, ((empty functions).answers rows).map (·.2.2) = List.replicate 4 (.ok ()) →
      AllAccepted (empty functions) rows := fun made answered member =>
    List.eq_of_mem_replicate (made ▸ List.mem_map_of_mem member)
  have one : AllAccepted (empty functions) rows := allAccepted rfl
  have other : AllAccepted (empty functions) turned := allAccepted rfl
  have members : ∀ key, membersOf key rows = membersOf key grouped := by
    intro key
    simp only [rows, grouped, membersOf_cons]
    by_cases first : key = [.int 1]
    · subst first
      rfl
    · simp only [if_neg first]
  obtain ⟨same, _⟩ := (results_of_reordered functions rows turned).1 perm one other
  obtain ⟨accepted, results, summary⟩ := (results_of_reordered functions rows grouped).2 members
  exact ⟨perm, one, other, same.symm.trans rfl, members, accepted.mp one, results ▸ summary one⟩

end StreamQuery.Groups
