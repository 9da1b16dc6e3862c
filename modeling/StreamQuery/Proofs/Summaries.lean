import StreamQuery.Proofs.AggregateFolds

/-!
# Summaries of streams

A summary folds the first columns of a stream, one by each function, as one group under the empty
key. It is exact: it has a result just if every record is wide enough and every column can be
folded, and then the result is what the functions compute of the columns. Otherwise its error is
that of the first record that cannot be folded, and of the first column in it.
-/

namespace StreamQuery

/-- Why a record cannot be folded behind others: it is too short, or a column refuses its value and
    no column before that one does. -/
inductive Offends (functions : List Aggregate) (before : List Record) (record : Record) : Error → Prop where
  | short : record.length < functions.length →
      Offends functions before record (.arityMismatch functions.length record.length)
  | value {i : Nat} {f : Aggregate} {v : Value} {e : Error} : functions.length ≤ record.length →
      functions[i]? = some f → record[i]? = some v → f.Refuses (column i before) v e →
      (∀ j < i, ∀ f : Aggregate, functions[j]? = some f → f.Foldable (column j (before ++ [record]))) →
      Offends functions before record e

/-- Records that are wide enough for some functions, with columns that can be folded by them. -/
structure Summable (functions : List Aggregate) (records : List Record) : Prop where
  wide : ∀ record ∈ records, functions.length ≤ record.length
  foldable : ColumnsFoldable functions records

/-- The groups after some records: one with what the functions compute of the columns, and none
    before the first record. -/
def summaryGroups (functions : List Aggregate) (records : List Record) : Groups :=
  if records = [] then .empty functions else ⟨functions, [([], exactRecord functions records)]⟩

variable {functions : List Aggregate} {records : List Record} {record : Record} {g : Groups} {e : Error}

theorem summable_nil (functions : List Aggregate) : Summable functions [] where
  wide := nofun
  foldable := columnsFoldable_nil functions

theorem Summable.concat (summable : Summable functions records) (wide : functions.length ≤ record.length)
    (foldable : ColumnsFoldable functions (records ++ [record])) : Summable functions (records ++ [record]) where
  wide other member := by
    rcases List.mem_append.mp member with before | here
    · exact summable.wide other before
    · rwa [List.mem_singleton.mp here]
  foldable := foldable

theorem Summable.earlier (summable : Summable functions (records ++ [record])) : Summable functions records where
  wide other member := summable.wide other (List.mem_append_left _ member)
  foldable i f function := by
    have wide := summable.wide record (by simp)
    obtain ⟨v, here⟩ := exists_value wide function
    have all := summable.foldable i f function
    rw [column_concat here] at all
    exact (Aggregate.foldable_concat.mp all).1

theorem summaryGroups_concat (functions : List Aggregate) (records : List Record) (record : Record) :
    summaryGroups functions (records ++ [record]) = ⟨functions, [([], exactRecord functions (records ++ [record]))]⟩ :=
  if_neg (by simp)

/-- One more record steps the only group, which begins with the initial states. -/
theorem add_summaryGroups (wide : functions.length ≤ record.length) :
    (summaryGroups functions records).add [] (record.take functions.length) =
      ((Groups.stepStates functions record (exactRecord functions records)).1,
        ⟨functions, [([], (Groups.stepStates functions record (exactRecord functions records)).2)]⟩) := by
  have width : (record.take functions.length).length = functions.length := by
    rw [List.length_take, Nat.min_eq_left wide]
  rw [← Groups.stepStates_take functions record]
  by_cases none : records = []
  · subst none
    rw [exactRecord_nil]
    exact if_pos width
  · rw [summaryGroups, if_neg none]
    exact if_pos width

/-- A record that is too short is refused; any other goes through the states of the only group. -/
theorem addRecord_eq :
    summarize.addRecord functions (summaryGroups functions records) record =
      if record.length < functions.length then .error (.arityMismatch functions.length record.length)
      else
        match Groups.stepStates functions record (exactRecord functions records) with
        | (.ok (), states) => .ok ⟨functions, [([], states)]⟩
        | (.error e, _) => .error e := by
  unfold summarize.addRecord
  by_cases short : record.length < functions.length
  · rw [if_pos short, if_pos short]
  · rw [if_neg short, if_neg short, add_summaryGroups (Nat.le_of_not_lt short)]
    rcases Groups.stepStates functions record (exactRecord functions records) with ⟨_ | _, states⟩ <;> rfl

theorem addRecord_eq_ok (summable : Summable functions records) :
    summarize.addRecord functions (summaryGroups functions records) record = .ok g ↔
      Summable functions (records ++ [record]) ∧ g = summaryGroups functions (records ++ [record]) := by
  rw [addRecord_eq]
  by_cases short : record.length < functions.length
  · rw [if_pos short]
    refine ⟨fun same => (nomatch same), fun ⟨more, _⟩ => ?_⟩
    exact absurd (more.wide record (by simp)) (Nat.not_le_of_lt short)
  · have wide := Nat.le_of_not_lt short
    rw [if_neg short, summaryGroups_concat]
    rcases result : Groups.stepStates functions record (exactRecord functions records) with ⟨_ | _, states⟩
    · refine ⟨fun same => (nomatch same), fun ⟨more, _⟩ => ?_⟩
      rw [(stepStates_exact summable.foldable wide).mpr ⟨more.foldable, rfl⟩] at result
      cases result
    · obtain ⟨foldable, rfl⟩ := (stepStates_exact summable.foldable wide).mp result
      exact ⟨fun same => ⟨summable.concat wide foldable, (Except.ok.inj same).symm⟩, fun ⟨_, same⟩ => congrArg _ same.symm⟩

theorem addRecord_eq_error (summable : Summable functions records) :
    summarize.addRecord functions (summaryGroups functions records) record = .error e ↔
      Offends functions records record e := by
  rw [addRecord_eq]
  by_cases short : record.length < functions.length
  · rw [if_pos short]
    constructor
    · intro same
      cases same
      exact .short short
    · intro offends
      cases offends with
      | short _ => rfl
      | value wide _ _ _ _ => exact absurd wide (Nat.not_le_of_lt short)
  · have wide := Nat.le_of_not_lt short
    have step : (Groups.stepStates functions record (exactRecord functions records)).1 = .error e ↔
        Offends functions records record e := by
      rw [stepStates_exact_error summable.foldable wide]
      constructor
      · rintro ⟨i, f, v, function, here, refused, before⟩
        exact .value wide function here refused before
      · intro offends
        cases offends with
        | short less => exact absurd less short
        | value _ function here refused before => exact ⟨_, _, _, function, here, refused, before⟩
    rw [if_neg short, ← step]
    rcases Groups.stepStates functions record (exactRecord functions records) with ⟨_ | _, states⟩
    · exact ⟨fun same => congrArg _ (Except.error.inj same), fun same => congrArg _ (Except.error.inj same)⟩
    · exact ⟨fun same => (nomatch same), fun same => (nomatch same)⟩

/-- The groups after a run of records, if all of them are folded. -/
theorem foldlM_addRecord : ∀ {g}, records.foldlM (summarize.addRecord functions) (.empty functions) = .ok g ↔
    Summable functions records ∧ g = summaryGroups functions records := by
  induction records using List.reverseRecOn with
  | nil =>
    intro g
    exact ⟨fun same => ⟨summable_nil functions, (Except.ok.inj same).symm⟩, fun ⟨_, same⟩ => congrArg _ same.symm⟩
  | append_singleton records record ih =>
    intro g
    rw [foldlM_concat_eq_ok]
    constructor
    · rintro ⟨earlier, made, last⟩
      obtain ⟨summable, rfl⟩ := ih.mp made
      exact (addRecord_eq_ok summable).mp last
    · rintro ⟨summable, rfl⟩
      have earlier := summable.earlier
      exact ⟨_, ih.mpr ⟨earlier, rfl⟩, (addRecord_eq_ok earlier).mpr ⟨summable, rfl⟩⟩

theorem resultsOfOne_summaryGroups (functions : List Aggregate) (records : List Record) :
    (summaryGroups functions records).resultsOfOne = [([], exactRecord functions records)] := by
  by_cases none : records = []
  · subst none
    rw [exactRecord_nil]
    rfl
  · rw [summaryGroups, if_neg none]
    rfl

theorem summarize_eq_ok {s : Stream} {result : Record} :
    summarize functions s = .ok result ↔ Summable functions s.records ∧ result = exactRecord functions s.records := by
  unfold summarize
  rw [bind_eq_ok]
  constructor
  · rintro ⟨g, run, made⟩
    obtain ⟨summable, rfl⟩ := foldlM_addRecord.mp run
    rw [resultsOfOne_summaryGroups] at made
    exact ⟨summable, (Except.ok.inj made).symm⟩
  · rintro ⟨summable, rfl⟩
    refine ⟨_, foldlM_addRecord.mpr ⟨summable, rfl⟩, ?_⟩
    rw [resultsOfOne_summaryGroups]
    rfl

theorem summarize_eq_error {s : Stream} :
    summarize functions s = .error e ↔
      s.records.foldlM (summarize.addRecord functions) (.empty functions) = .error e := by
  unfold summarize
  cases s.records.foldlM (summarize.addRecord functions) (.empty functions) with
  | error e' =>
    exact ⟨fun same => congrArg _ (Except.error.inj same), fun same => congrArg _ (Except.error.inj same)⟩
  | ok g => exact ⟨fun same => (nomatch same), fun same => (nomatch same)⟩

/-- A summary is exact. It has a result if and only if every record has a value for each function
    and every column is one that its function can fold, and the result is what the functions compute
    of the columns. It fails as the first record that cannot be folded behind those before it. -/
theorem summarize_exact (functions : List Aggregate) (s : Stream) :
    (∀ result, summarize functions s = .ok result ↔
      Summable functions s.records ∧ result = exactRecord functions s.records) ∧
    ∀ e, summarize functions s = .error e ↔
      ∃ before record after, s.records = before ++ record :: after ∧ Summable functions before ∧
        Offends functions before record e := by
  refine ⟨fun result => summarize_eq_ok, fun e => ?_⟩
  rw [summarize_eq_error, foldlM_eq_error]
  constructor
  · rintro ⟨before, record, after, g, split, made, failed⟩
    obtain ⟨summable, rfl⟩ := foldlM_addRecord.mp made
    exact ⟨before, record, after, split, summable, (addRecord_eq_error summable).mp failed⟩
  · rintro ⟨before, record, after, split, summable, offends⟩
    exact ⟨before, record, after, _, split, foldlM_addRecord.mpr ⟨summable, rfl⟩,
      (addRecord_eq_error summable).mpr offends⟩

/-- The sum leaves its range at the second record, although the whole sum is in range; the value
    behind it in the same record is not looked at. -/
example : summarize [.sum, .boolOr] ⟨[], [[.int maxInt, .null], [.int 1, .int 0], [.int (-1), .bool true]]⟩ =
    .error (.invalidValue .sumOverflow) := rfl

end StreamQuery
