import Mathlib.Data.List.Induction
import StreamQuery.Proofs.Calls
import StreamQuery.Proofs.Groups
import StreamQuery.Query.Eval

/-!
# Grouped selects

A grouped select folds its rows one by one into the groups of their keys. Its result is that
of a partition: the rows are divided by their keys, every call is folded over the rows of
its group, and the projection is evaluated once for each group. The invariant of the fold
(`Folds`) says of every prefix of the rows that the states are those of the partition of the
prefix.
-/

namespace StreamQuery

/-! ## The partition of rows -/

/-- The fold of some values by an aggregate function, from its initial state. -/
def Aggregate.fold (f : Aggregate) (vs : List Value) : Except Error Value :=
  vs.foldlM (fun state v => f.step v state) f.initial

/-- The value of a call for a group: its argument is evaluated in every row, and the values
    are folded in the order of the rows. -/
def callOver (members : List Scope) (call : Call) : Except Error Value := do
  let vs ← members.mapM fun row => call.2.eval row
  call.1.builtin.fold vs

/-- The members of a key among others with their keys, in order. -/
def membersOf {α : Type} (key : Record) (keyed : List (Record × α)) : List α :=
  (keyed.filter (·.1 = key)).map Prod.snd

/-- The partition of some members by their keys: one group for each key that occurs, with all
    its members in order, and the keys of the groups strictly ascend. -/
structure IsPartition {α : Type} (keyed : List (Record × α)) (groups : List (Record × List α)) :
    Prop where
  ascending : Ascending (groups.map Prod.fst)
  keys : ∀ key, key ∈ groups.map Prod.fst ↔ key ∈ keyed.map Prod.fst
  members : ∀ group ∈ groups, group.2 = membersOf group.1 keyed

/-- The scope that a group reads its columns from: that of its first row, and where there is no row
    the name of every column of the source with NULL. -/
def groupScope (source : List Column) : List Scope → Scope
  | [] => ⟨source.map fun c => (c.name, .null)⟩
  | first :: _ => first

theorem groupScope_eq (source : List Column) (members : List Scope) :
    groupScope source members = members.head?.getD (Scope.nulls source) := by
  cases members <;> rfl

/-- What a row of a result is projected from: the scope that it reads, and the values of calls. -/
structure Basis where
  scope : Scope
  calls : Call → Except Error Value

def groupBasis (source : List Column) (members : List Scope) : Basis :=
  ⟨groupScope source members, callOver members⟩

namespace Clauses

def keyed (c : Clauses) (row : Scope) : Except Error (Record × Scope) := do
  let key ← c.groupKeys.mapM (Expr.eval row)
  .ok (key, row)

/-- The groups of a select: with GROUP BY the partition of the rows by their keys, without it
    all rows as one group, even if there are none. -/
inductive IsGrouping (c : Clauses) (rows : List Scope) : List (List Scope) → Prop where
  | byKey {keyed : List (Record × Scope)} {groups : List (Record × List Scope)}
      (grouped : c.groupBy.isSome = true) (keys : rows.mapM c.keyed = .ok keyed)
      (partition : IsPartition keyed groups) : IsGrouping c rows (groups.map Prod.snd)
  | whole (ungrouped : c.groupBy = none) : IsGrouping c rows [rows]

def projectFrom (c : Clauses) (basis : Basis) : Except Error Row := do
  let record ← c.projection.mapM (Expr.evalBy basis.calls basis.scope)
  let keys ← c.sortKeys.mapM (Expr.evalBy basis.calls (basis.scope.bindAliases c.projection record))
  .ok ⟨record, keys⟩

/-- The record of a group: the projection in the scope of the group, where each call is folded
    over the rows of the group. -/
def groupRecord (c : Clauses) (source : List Column) (members : List Scope) :
    Except Error Record :=
  c.projection.mapM (Expr.evalBy (callOver members) (groupScope source members))

end Clauses

/-! ## Folding one more row -/

theorem callOver_concat {members : List Scope} {row : Scope} {call : Call} {w : Value} :
    callOver (members ++ [row]) call = .ok w ↔
      ∃ v a, callOver members call = .ok v ∧ call.2.eval row = .ok a ∧ call.1.builtin.step a v = .ok w := by
  unfold callOver Aggregate.fold
  rw [bind_eq_ok]
  constructor
  · rintro ⟨vs, evaluated, folded⟩
    obtain ⟨before, a, first, here, rfl⟩ := mapM_concat_eq_ok.mp evaluated
    obtain ⟨v, earlier, last⟩ := foldlM_concat_eq_ok.mp folded
    exact ⟨v, a, bind_eq_ok.mpr ⟨before, first, earlier⟩, here, last⟩
  · rintro ⟨v, a, earlier, here, last⟩
    obtain ⟨before, first, folded⟩ := bind_eq_ok.mp earlier
    exact ⟨before ++ [a], mapM_concat_eq_ok.mpr ⟨before, a, first, here, rfl⟩,
      foldlM_concat_eq_ok.mpr ⟨v, folded, last⟩⟩

theorem callOver_nil (call : Call) : callOver [] call = .ok call.1.builtin.initial := rfl

/-- Stepping the states of some members by one row gives the states of the members and the
    row, if it succeeds, and it succeeds if those exist. -/
theorem stepStates_iff {members : List Scope} {row : Scope} :
    ∀ {calls : List Call} {arguments states stepped : List Value},
      calls.mapM (callOver members) = .ok states →
      calls.mapM (fun call => call.2.eval row) = .ok arguments →
      (Groups.stepStates (functionsOf calls) arguments states = (.ok (), stepped) ↔
        calls.mapM (callOver (members ++ [row])) = .ok stepped)
  | [], arguments, states, stepped, before, evaluated => by
    cases before
    cases evaluated
    show ((.ok (), []) : Except Error Unit × List Value) = (.ok (), stepped) ↔ Except.ok [] = .ok stepped
    simp
  | call :: calls, arguments, states, stepped, before, evaluated => by
    obtain ⟨state, states, first, later, rfl⟩ := mapM_cons_eq_ok.mp before
    obtain ⟨argument, arguments, here, others, rfl⟩ := mapM_cons_eq_ok.mp evaluated
    have rest : ∀ stepped, Groups.stepStates (functionsOf calls) arguments states = (.ok (), stepped) ↔
        calls.mapM (callOver (members ++ [row])) = .ok stepped :=
      fun stepped => stepStates_iff later others
    have step : ∀ w, callOver (members ++ [row]) call = .ok w ↔ call.1.builtin.step argument state = .ok w := by
      intro w
      rw [callOver_concat, first, here]
      simp
    rw [mapM_cons_eq_ok]
    simp only [functionsOf_cons, Groups.stepStates]
    cases result : call.1.builtin.step argument state with
    | error e => simp [step, result]
    | ok w =>
      rcases tail : Groups.stepStates (functionsOf calls) arguments states with ⟨outcome, stepped'⟩
      simp only [Prod.mk.injEq, step, result, ← rest, tail, Except.ok.injEq]
      constructor
      · rintro ⟨rfl, rfl⟩
        exact ⟨w, stepped', rfl, ⟨rfl, rfl⟩, rfl⟩
      · rintro ⟨_, _, rfl, ⟨rfl, rfl⟩, rfl⟩
        exact ⟨rfl, rfl⟩

theorem membersOf_concat {α : Type} (key : Record) (keyed : List (Record × α)) (one : Record × α) :
    membersOf key (keyed ++ [one]) =
      if one.1 = key then membersOf key keyed ++ [one.2] else membersOf key keyed := by
  unfold membersOf
  by_cases same : one.1 = key
  · simp [same]
  · simp [same]

theorem membersOf_cons {α : Type} (key k : Record) (one : α) (keyed : List (Record × α)) :
    membersOf key ((k, one) :: keyed) = if key = k then one :: membersOf key keyed else membersOf key keyed := by
  unfold membersOf
  by_cases same : key = k
  · simp [same]
  · simp [same, Ne.symm same]

theorem mem_membersOf {α : Type} {key : Record} {one : α} {keyed : List (Record × α)} :
    one ∈ membersOf key keyed ↔ (key, one) ∈ keyed := by
  unfold membersOf
  simp

theorem membersOf_eq_nil {α : Type} {key : Record} {keyed : List (Record × α)} :
    membersOf key keyed = [] ↔ key ∉ keyed.map Prod.fst := by
  rw [List.eq_nil_iff_forall_not_mem]
  constructor
  · intro none member
    obtain ⟨⟨k, one⟩, inside, rfl⟩ := List.mem_map.mp member
    exact none one (mem_membersOf.mpr inside)
  · exact fun absent one member => absent (List.mem_map_of_mem (mem_membersOf.mp member))

/-! ## The fold over all rows -/

/-- What the fold has after some rows: their keys, and the groups of their partition with the
    values of the calls over each. -/
structure Folds (c : Clauses) (calls : List Call) (rows : List Scope) (folded : Clauses.Folded) :
    Prop where
  functions : folded.groups.functions = functionsOf calls
  keyed : rows.mapM c.keyed = .ok folded.rows.reverse
  ascending : Ascending (folded.groups.entries.map Prod.fst)
  keys : ∀ key, key ∈ folded.groups.entries.map Prod.fst ↔ key ∈ folded.rows.map Prod.fst
  states : ∀ key states, (key, states) ∈ folded.groups.entries →
    calls.mapM (callOver (membersOf key folded.rows.reverse)) = .ok states

theorem folds_start (c : Clauses) (calls : List Call) :
    Folds c calls [] ⟨Groups.empty (functionsOf calls), []⟩ where
  functions := rfl
  keyed := rfl
  ascending := List.Pairwise.nil
  keys _ := Iff.rfl
  states _ _ member := nomatch member

theorem initialStates_eq {calls : List Call} {g : Groups} (functions : g.functions = functionsOf calls) :
    calls.mapM (callOver []) = .ok g.initialStates := by
  unfold Groups.initialStates
  rw [functions]
  clear functions
  induction calls with
  | nil => rfl
  | cons call rest ih =>
    exact mapM_cons_eq_ok.mpr ⟨_, _, callOver_nil call, ih, rfl⟩

theorem keyed_eq_ok {c : Clauses} {row : Scope} {entry : Record × Scope} :
    c.keyed row = .ok entry ↔ c.groupKeys.mapM (Expr.eval row) = .ok entry.1 ∧ entry.2 = row := by
  unfold Clauses.keyed
  rw [bind_eq_ok]
  constructor
  · rintro ⟨key, evaluated, same⟩
    cases same
    exact ⟨evaluated, rfl⟩
  · rintro ⟨evaluated, rfl⟩
    exact ⟨entry.1, evaluated, rfl⟩

/-- The states at a key are those of the rows folded under it. -/
theorem Folds.entry {c : Clauses} {calls : List Call} {rows : List Scope} {folded : Clauses.Folded}
    (folds : Folds c calls rows folded) {key : Record} {old : List Value}
    (entry : Groups.IsEntry key folded.groups.initialStates folded.groups.entries old) :
    calls.mapM (callOver (membersOf key folded.rows.reverse)) = .ok old := by
  rcases entry with member | ⟨absent, rfl⟩
  · exact folds.states key old member
  · have none : key ∉ folded.rows.reverse.map Prod.fst := by
      rw [List.map_reverse, List.mem_reverse, ← folds.keys key]
      exact absent
    rw [membersOf_eq_nil.mpr none]
    exact initialStates_eq folds.functions

/-- The invariant of one more row: its key gets the values of the calls over the rows of the key
    and the new one, and the other groups stay. -/
theorem Folds.concat {c : Clauses} {calls : List Call} {rows : List Scope} {folded : Clauses.Folded}
    (folds : Folds c calls rows folded) {row : Scope} {key : Record} {groups : Groups} {new : List Value}
    (rowKey : c.keyed row = .ok (key, row)) (functions : groups.functions = folded.groups.functions)
    (ascending : Ascending (groups.entries.map Prod.fst))
    (replaces : Groups.Replaces key new folded.groups.entries groups.entries)
    (values : calls.mapM (callOver (membersOf key folded.rows.reverse ++ [row])) = .ok new) :
    Folds c calls (rows ++ [row]) ⟨groups, (key, row) :: folded.rows⟩ where
  functions := functions.trans folds.functions
  keyed := by
    rw [List.reverse_cons]
    exact mapM_concat_eq_ok.mpr ⟨_, _, folds.keyed, rowKey, rfl⟩
  ascending := ascending
  keys k := by rw [List.map_cons, List.mem_cons, ← folds.keys k, replaces.keys k]
  states k states member := by
    rw [List.reverse_cons, membersOf_concat]
    rcases (replaces k states).mp member with ⟨rfl, rfl⟩ | ⟨other, before⟩
    · rw [if_pos rfl]
      exact values
    · rw [if_neg (Ne.symm other)]
      exact folds.states k states before

/-- Folding a row is adding the values of the arguments under the key of the row. -/
theorem foldRow_eq {c : Clauses} {calls : List Call} {row : Scope} {key : Record} {folded : Clauses.Folded}
    {arguments : List Value} {outcome : Except Error Unit} {groups : Groups}
    (rowKey : c.keyed row = .ok (key, row))
    (evaluated : calls.mapM (fun call => call.2.eval row) = .ok arguments)
    (added : folded.groups.add key arguments = (outcome, groups)) :
    c.foldRow calls folded row = outcome.map fun _ => ⟨groups, (key, row) :: folded.rows⟩ := by
  unfold Clauses.foldRow
  rw [(keyed_eq_ok.mp rowKey).1, evaluated]
  cases outcome with
  | error e => simp only [bind, Except.bind, added, Except.map]
  | ok u => simp only [bind, Except.bind, added, Except.map]

/-- What one row does to the fold: it succeeds if the states of its group with one more row
    exist, and those are the states afterwards. -/
theorem foldRow_spec {c : Clauses} {calls : List Call} {rows : List Scope} {row : Scope} {key : Record}
    {folded : Clauses.Folded} {arguments : List Value} (folds : Folds c calls rows folded)
    (rowKey : c.keyed row = .ok (key, row))
    (evaluated : calls.mapM (fun call => call.2.eval row) = .ok arguments) :
    (∀ states, calls.mapM (callOver (membersOf key folded.rows.reverse ++ [row])) = .ok states →
      ∃ next, c.foldRow calls folded row = .ok next) ∧
    ∀ next, c.foldRow calls folded row = .ok next → Folds c calls (rows ++ [row]) next := by
  have width : arguments.length = folded.groups.functions.length := by
    rw [length_of_mapM evaluated, folds.functions, length_functionsOf]
  obtain ⟨old, entry, answer, functions, ascending, replaces⟩ :=
    Groups.add_spec key folds.ascending width
  rw [folds.functions] at answer replaces
  have stepped : ∀ states, Groups.stepStates (functionsOf calls) arguments old = (.ok (), states) ↔
      calls.mapM (callOver (membersOf key folded.rows.reverse ++ [row])) = .ok states :=
    fun states => stepStates_iff (folds.entry entry) evaluated
  rcases added : folded.groups.add key arguments with ⟨outcome, groups⟩
  rw [added] at answer functions ascending replaces
  rw [foldRow_eq rowKey evaluated added]
  refine ⟨fun states exist => ?_, fun next accepted => ?_⟩
  · rw [(stepped states).mpr exist] at answer
    cases answer
    exact ⟨_, rfl⟩
  · cases outcome with
    | error e => cases accepted
    | ok u =>
      cases accepted
      have values := (stepped _).mp (Prod.ext_iff.mpr ⟨answer.symm, rfl⟩)
      exact folds.concat rowKey functions ascending replaces values

theorem foldRow_eq_ok {c : Clauses} {calls : List Call} {row : Scope} {folded next : Clauses.Folded}
    (accepted : c.foldRow calls folded row = .ok next) :
    ∃ key arguments, c.keyed row = .ok (key, row) ∧
      calls.mapM (fun call => call.2.eval row) = .ok arguments := by
  obtain ⟨key, rowKey, accepted⟩ := bind_eq_ok.mp accepted
  obtain ⟨arguments, evaluated, _⟩ := bind_eq_ok.mp accepted
  exact ⟨key, arguments, keyed_eq_ok.mpr ⟨rowKey, rfl⟩, evaluated⟩

def Clauses.fold (c : Clauses) (rows : List Scope) : Except Error Clauses.Folded :=
  rows.foldlM (c.foldRow c.calls) ⟨Groups.empty (functionsOf c.calls), []⟩

theorem folds_of_fold {c : Clauses} {rows : List Scope} :
    ∀ {folded}, c.fold rows = .ok folded → Folds c c.calls rows folded := by
  induction rows using List.reverseRecOn with
  | nil =>
    intro folded run
    cases run
    exact folds_start c c.calls
  | append_singleton rows row ih =>
    intro folded run
    obtain ⟨before, earlier, last⟩ := foldlM_concat_eq_ok.mp run
    obtain ⟨key, arguments, rowKey, evaluated⟩ := foldRow_eq_ok last
    exact (foldRow_spec (ih earlier) rowKey evaluated).2 folded last

/-- The calls have values over some members only if they have values over fewer of them, and
    only if their arguments have values in the last one. -/
theorem callOver_fewer {calls : List Call} {members : List Scope} {row : Scope} {states : List Value}
    (exist : calls.mapM (callOver (members ++ [row])) = .ok states) :
    (∃ before, calls.mapM (callOver members) = .ok before) ∧
      ∃ arguments, calls.mapM (fun call => call.2.eval row) = .ok arguments := by
  have each := mapM_ok_iff.mp ⟨states, exist⟩
  refine ⟨mapM_ok_iff.mpr fun call member => ?_, mapM_ok_iff.mpr fun call member => ?_⟩
  · obtain ⟨w, folded⟩ := each call member
    obtain ⟨v, a, earlier, _, _⟩ := callOver_concat.mp folded
    exact ⟨v, earlier⟩
  · obtain ⟨w, folded⟩ := each call member
    obtain ⟨v, a, _, here, _⟩ := callOver_concat.mp folded
    exact ⟨a, here⟩

/-- The fold succeeds if every row has a key and every call a value over every group. -/
theorem fold_total {c : Clauses} {rows : List Scope} :
    ∀ {keyed}, rows.mapM c.keyed = .ok keyed →
      (∀ key ∈ keyed.map Prod.fst, ∃ states, c.calls.mapM (callOver (membersOf key keyed)) = .ok states) →
      ∃ folded, c.fold rows = .ok folded := by
  induction rows using List.reverseRecOn with
  | nil => exact fun _ _ => ⟨_, rfl⟩
  | append_singleton rows row ih =>
    intro keyed keys exist
    obtain ⟨before, ⟨key, _⟩, earlier, rowKey, rfl⟩ := mapM_concat_eq_ok.mp keys
    obtain ⟨_, rfl⟩ := keyed_eq_ok.mp rowKey
    obtain ⟨states, last⟩ := exist key (by simp)
    rw [membersOf_concat, if_pos rfl] at last
    obtain ⟨_, arguments, evaluated⟩ := callOver_fewer last
    -- The groups of the earlier rows are beginnings of groups of all rows.
    obtain ⟨folded, run⟩ := ih earlier fun k member => by
      obtain ⟨states, whole⟩ := exist k (by simp [member])
      rw [membersOf_concat] at whole
      by_cases same : key = k
      · rw [if_pos same] at whole
        exact (callOver_fewer whole).1
      · rw [if_neg same] at whole
        exact ⟨states, whole⟩
    have folds := folds_of_fold run
    have same : before = folded.rows.reverse := Except.ok.inj (earlier.symm.trans folds.keyed)
    rw [same] at last
    obtain ⟨next, accepted⟩ := (foldRow_spec folds rowKey evaluated).1 states last
    exact ⟨next, foldlM_concat_eq_ok.mpr ⟨folded, run, accepted⟩⟩

/-! ## The groups of the result -/

def Clauses.results (c : Clauses) (groups : Groups) : List (Record × Record) :=
  if c.groupBy.isSome then groups.results else groups.resultsOfOne

theorem keyed_ungrouped {c : Clauses} (ungrouped : c.groupBy = none) (rows : List Scope) :
    rows.mapM c.keyed = .ok (rows.map fun row => ([], row)) := by
  induction rows with
  | nil => rfl
  | cons row rest ih =>
    refine mapM_cons_eq_ok.mpr ⟨_, _, keyed_eq_ok.mpr ⟨?_, rfl⟩, ih, rfl⟩
    unfold Clauses.groupKeys
    rw [ungrouped]
    rfl

theorem membersOf_ungrouped (rows : List Scope) :
    membersOf [] (rows.map fun row => (([] : Record), row)) = rows := by
  induction rows with
  | nil => rfl
  | cons row rest ih => simpa [membersOf] using ih

theorem ascending_of_same {key : Record} {keys : List Record} (ascending : Ascending keys)
    (same : ∀ k ∈ keys, k = key) : keys = [] ∨ keys = [key] := by
  cases keys with
  | nil => exact .inl rfl
  | cons first rest =>
    obtain rfl := same first (by simp)
    cases rest with
    | nil => exact .inr rfl
    | cons second others =>
      obtain rfl := same second (by simp)
      exact absurd (ascending_nodup ascending) (by simp)

/-- With GROUP BY the keys of the fold have the partition of the rows. -/
theorem Folds.partition {c : Clauses} {calls : List Call} {rows : List Scope} {folded : Clauses.Folded}
    (folds : Folds c calls rows folded) :
    IsPartition folded.rows.reverse
      (folded.groups.entries.map fun group => (group.1, membersOf group.1 folded.rows.reverse)) where
  ascending := by
    rw [List.map_map]
    exact folds.ascending
  keys key := by
    rw [List.map_map, List.map_reverse, List.mem_reverse, ← folds.keys key]
    rfl
  members group member := by
    obtain ⟨entry, _, rfl⟩ := List.mem_map.mp member
    rfl

/-- Without GROUP BY there is one group, which has all rows, even if there are none. -/
theorem Folds.results_ungrouped {c : Clauses} {calls : List Call} {rows : List Scope} {folded : Clauses.Folded}
    (folds : Folds c calls rows folded) (ungrouped : c.groupBy = none) :
    membersOf [] folded.rows.reverse = rows ∧
      ∃ states, c.results folded.groups = [([], states)] ∧ calls.mapM (callOver rows) = .ok states := by
  have keyed : folded.rows.reverse = rows.map fun row => ([], row) :=
    Except.ok.inj (folds.keyed.symm.trans (keyed_ungrouped ungrouped rows))
  have whole : membersOf [] folded.rows.reverse = rows := by
    rw [keyed]
    exact membersOf_ungrouped rows
  have empties : ∀ key ∈ folded.groups.entries.map Prod.fst, key = [] := by
    intro key member
    rw [folds.keys key, ← List.mem_reverse, ← List.map_reverse, keyed, List.map_map] at member
    obtain ⟨row, _, rfl⟩ := List.mem_map.mp member
    rfl
  refine ⟨whole, ?_⟩
  unfold Clauses.results
  simp only [ungrouped, Option.isSome_none, Bool.false_eq_true, if_false, Groups.resultsOfOne, Groups.results]
  rcases ascending_of_same folds.ascending empties with none | one
  · have start : Groups.IsEntry [] folded.groups.initialStates folded.groups.entries
        folded.groups.initialStates := .inr ⟨by simp [none], rfl⟩
    have initial := folds.entry start
    rw [whole] at initial
    rw [List.map_eq_nil_iff.mp none, List.isEmpty_nil, if_pos rfl]
    exact ⟨_, rfl, initial⟩
  · obtain ⟨⟨key, states⟩, single, rfl⟩ := List.map_eq_singleton_iff.mp one
    have finished := folds.states [] states (by rw [single]; exact List.mem_singleton_self _)
    rw [whole] at finished
    rw [single, List.isEmpty_cons, if_neg Bool.false_ne_true]
    exact ⟨_, rfl, finished⟩

/-- The groups of the fold are those of the partition, and their states are the values of the
    calls over them. -/
theorem Folds.results {c : Clauses} {calls : List Call} {rows : List Scope} {folded : Clauses.Folded}
    (folds : Folds c calls rows folded) :
    c.IsGrouping rows ((c.results folded.groups).map fun group => membersOf group.1 folded.rows.reverse) ∧
      ∀ group ∈ c.results folded.groups,
        calls.mapM (callOver (membersOf group.1 folded.rows.reverse)) = .ok group.2 := by
  cases grouped : c.groupBy with
  | some exprs =>
    have every : c.results folded.groups = folded.groups.entries := by
      unfold Clauses.results
      rw [grouped]
      rfl
    rw [every]
    have grouping := Clauses.IsGrouping.byKey (by rw [grouped]; rfl) folds.keyed folds.partition
    rw [List.map_map] at grouping
    exact ⟨grouping, fun group member => folds.states group.1 group.2 member⟩
  | none =>
    obtain ⟨whole, states, one, values⟩ := folds.results_ungrouped grouped
    rw [one]
    refine ⟨?_, fun group member => ?_⟩
    · rw [List.map_singleton, whole]
      exact .whole grouped
    · cases List.mem_singleton.mp member
      rw [whole]
      exact values

theorem IsPartition.groups_eq {α : Type} {keyed : List (Record × α)} {groups : List (Record × List α)}
    (partition : IsPartition keyed groups) :
    groups.map Prod.snd = (groups.map Prod.fst).map fun key => membersOf key keyed := by
  rw [List.map_map]
  exact List.map_congr_left partition.members

/-- The groups of the rows are determined by the clauses. -/
theorem grouping_unique {c : Clauses} {rows : List Scope} {one other : List (List Scope)}
    (first : c.IsGrouping rows one) (second : c.IsGrouping rows other) : one = other := by
  cases first with
  | byKey grouped keys partition =>
    cases second with
    | byKey _ keys' partition' =>
      obtain rfl := Except.ok.inj (keys.symm.trans keys')
      have same := ascending_unique partition.ascending partition'.ascending fun key =>
        (partition.keys key).trans (partition'.keys key).symm
      rw [partition.groups_eq, partition'.groups_eq, same]
    | whole ungrouped => rw [ungrouped] at grouped; cases grouped
  | whole ungrouped =>
    cases second with
    | byKey grouped _ _ => rw [ungrouped] at grouped; cases grouped
    | whole _ => rfl

/-! ## The records of the groups -/

/-- The first member of a key is the one that is found by the key. -/
theorem lookup_eq_head {α : Type} (key : Record) (keyed : List (Record × α)) :
    keyed.lookup key = (membersOf key keyed).head? := by
  unfold membersOf
  induction keyed with
  | nil => rfl
  | cons entry rest ih =>
    obtain ⟨k, one⟩ := entry
    by_cases same : k = key
    · subst same
      simp
    · have differ : (key == k) = false := beq_eq_false_iff_ne.mpr (Ne.symm same)
      simp [List.lookup_cons, differ, same, ih]

/-- Each call finds the value that was finished for it. -/
theorem value_of_zip {f : Call → Except Error Value} {calls : List Call} :
    ∀ {values}, calls.mapM f = .ok values → ∀ call ∈ calls, Finished.value (calls.zip values) call = f call := by
  induction calls with
  | nil => intro values finished call member; cases member
  | cons one rest ih =>
    intro values finished call member
    obtain ⟨v, others, first, later, rfl⟩ := mapM_cons_eq_ok.mp finished
    by_cases same : call = one
    · subst same
      simp [Finished.value, first]
    · rw [← ih later call ((List.mem_cons.mp member).resolve_left same)]
      have differ : (call == one) = false := beq_eq_false_iff_ne.mpr same
      simp [Finished.value, List.lookup_cons, differ]

theorem calls_unordered {c : Clauses} (unordered : c.orderBy = none) : c.calls = callsOf c.projection := by
  unfold Clauses.calls Clauses.sortKeys
  rw [unordered]
  simp

/-- Finished results are one way of giving values to calls. -/
theorem project_eq (c : Clauses) (finished : Finished) (scope : Scope) :
    c.project finished scope = c.projectFrom ⟨scope, finished.value⟩ := by
  have evaluated : ∀ scope, Expr.evalWith scope finished = Expr.evalBy finished.value scope :=
    fun scope => funext (evalWith_eq_evalBy scope finished)
  unfold Clauses.project Clauses.projectFrom
  simp only [evaluated]

/-- A row depends on the calls of the projection and of the sort keys alone. -/
theorem projectFrom_congr {c : Clauses} {scope : Scope} {one other : Call → Except Error Value}
    (agree : ∀ call ∈ c.calls, one call = other call) :
    c.projectFrom ⟨scope, one⟩ = c.projectFrom ⟨scope, other⟩ := by
  have each : ∀ e ∈ c.projection ++ c.sortKeys, ∀ scope, e.evalBy one scope = e.evalBy other scope := by
    intro e member scope
    refine evalBy_congr scope e fun call inside => agree call ?_
    exact mem_callsOf.mpr (List.mem_flatMap.mpr ⟨e, member, inside⟩)
  unfold Clauses.projectFrom
  rw [mapM_congr fun e projected => each e (List.mem_append_left _ projected) scope]
  refine bind_congr fun record => ?_
  rw [mapM_congr fun e key => each e (List.mem_append_right _ key) _]

theorem project_group {c : Clauses} {source : List Column} {members : List Scope} {values : Record}
    (finished : c.calls.mapM (callOver members) = .ok values) :
    c.project (c.calls.zip values) (groupScope source members) = c.projectFrom (groupBasis source members) := by
  rw [project_eq]
  exact projectFrom_congr (value_of_zip finished)

/-- The rows are folded, and then each group that the fold ends with is projected. -/
theorem projectGroups_eq (c : Clauses) (source : List Column) (rows : List Scope) :
    c.projectGroups source rows = (do
      let folded ← c.fold rows
      (c.results folded.groups).mapM fun group => c.project (c.calls.zip group.2)
        ((folded.rows.reverse.lookup group.1).getD (Scope.nulls source))) := by
  unfold Clauses.projectGroups
  simp only [functions_found]
  rfl

/-- What a fold ends with is projected to the rows of its groups. -/
theorem Folds.projected {c : Clauses} {source : List Column} {rows : List Scope} {folded : Clauses.Folded}
    (folds : Folds c c.calls rows folded) :
    ((c.results folded.groups).mapM fun group => c.project (c.calls.zip group.2)
        ((folded.rows.reverse.lookup group.1).getD (Scope.nulls source))) =
      (((c.results folded.groups).map fun group => membersOf group.1 folded.rows.reverse).map
        (groupBasis source)).mapM c.projectFrom := by
  rw [List.map_map, List.mapM_map]
  refine mapM_congr fun group member => ?_
  rw [lookup_eq_head, ← groupScope_eq]
  exact project_group (folds.results.2 group member)

/-- The fold succeeds if the rows have groups and every call a value over each. -/
theorem fold_of_grouping {c : Clauses} {rows : List Scope} {groups : List (List Scope)}
    (grouping : c.IsGrouping rows groups)
    (exist : ∀ members ∈ groups, ∀ call ∈ c.calls, ∃ v, callOver members call = .ok v) :
    ∃ folded, c.fold rows = .ok folded := by
  cases grouping with
  | byKey grouped keys partition =>
    refine fold_total keys fun key member => mapM_ok_iff.mpr ?_
    obtain ⟨group, inside, rfl⟩ := List.mem_map.mp ((partition.keys key).mpr member)
    rw [← partition.members group inside]
    exact exist group.2 (List.mem_map_of_mem inside)
  | whole ungrouped =>
    refine fold_total (keyed_ungrouped ungrouped rows) fun key member => mapM_ok_iff.mpr ?_
    rw [List.map_map] at member
    obtain ⟨row, _, rfl⟩ := List.mem_map.mp member
    show ∀ call ∈ c.calls, ∃ v, callOver (membersOf [] (rows.map fun row => ([], row))) call = .ok v
    rw [membersOf_ungrouped]
    exact exist rows (List.mem_singleton_self rows)

/-- The groups of some rows are projected if every row has a key, every call a value over every
    group, and every group a row. -/
theorem projectGroups_eq_ok {c : Clauses} {source : List Column} {rows : List Scope} {projected : List Row} :
    c.projectGroups source rows = .ok projected ↔
      ∃ groups, c.IsGrouping rows groups ∧
        (∀ members ∈ groups, ∀ call ∈ c.calls, ∃ v, callOver members call = .ok v) ∧
        (groups.map (groupBasis source)).mapM c.projectFrom = .ok projected := by
  rw [projectGroups_eq, bind_eq_ok]
  constructor
  · rintro ⟨folded, accepted, result⟩
    have folds := folds_of_fold accepted
    rw [folds.projected] at result
    refine ⟨_, folds.results.1, fun members inside => ?_, result⟩
    obtain ⟨group, member, rfl⟩ := List.mem_map.mp inside
    exact mapM_ok_iff.mp ⟨group.2, folds.results.2 group member⟩
  · rintro ⟨groups, grouping, exist, each⟩
    obtain ⟨folded, accepted⟩ := fold_of_grouping grouping exist
    have folds := folds_of_fold accepted
    refine ⟨folded, accepted, ?_⟩
    rw [folds.projected, grouping_unique folds.results.1 grouping, each]

theorem projectFrom_unordered {c : Clauses} (unordered : c.orderBy = none) (basis : Basis) :
    c.projectFrom basis =
      (⟨·, []⟩ : Record → Row) <$> c.projection.mapM (Expr.evalBy basis.calls basis.scope) := by
  unfold Clauses.projectFrom Clauses.sortKeys
  rw [unordered]
  cases c.projection.mapM (Expr.evalBy basis.calls basis.scope) <;> rfl

/-- Without ORDER BY, the rows of the groups are their records. -/
theorem projectGroups_iff {c : Clauses} {source : List Column} {rows : List Scope} {projected : List Row}
    (unordered : c.orderBy = none) :
    c.projectGroups source rows = .ok projected ↔
      ∃ groups records, c.IsGrouping rows groups ∧
        (∀ members ∈ groups, ∀ call ∈ c.calls, ∃ v, callOver members call = .ok v) ∧
        groups.mapM (c.groupRecord source) = .ok records ∧ projected = records.map (⟨·, []⟩) := by
  have records : ∀ groups : List (List Scope), (groups.map (groupBasis source)).mapM c.projectFrom =
      (List.map (⟨·, []⟩) : List Record → List Row) <$> groups.mapM (c.groupRecord source) := by
    intro groups
    rw [List.mapM_map]
    exact mapM_after fun members _ => projectFrom_unordered unordered (groupBasis source members)
  rw [projectGroups_eq_ok]
  constructor
  · rintro ⟨groups, grouping, exist, each⟩
    rw [records, map_eq_ok] at each
    obtain ⟨made, all, rfl⟩ := each
    exact ⟨groups, made, grouping, exist, all, rfl⟩
  · rintro ⟨groups, made, grouping, exist, all, rfl⟩
    exact ⟨groups, grouping, exist, by rw [records, all]; rfl⟩

theorem records_of_rows (records : List Record) :
    (records.map fun record => (⟨record, []⟩ : Row)).map Row.record = records := by
  rw [List.map_map]
  exact List.map_id records

theorem run_eq_ok {c : Clauses} {strict : Bool} {source : List Column} {scopes : List Scope} {result : Stream} :
    c.run strict source scopes = .ok result ↔
      c.header strict source = .ok result.header ∧ (strict = true → c.checkTypes source = .ok ()) ∧
        ∃ kept rows, c.passing scopes = .ok kept ∧ c.rows source kept = .ok rows ∧
          result.records = (c.sorted rows).map Row.record := by
  constructor
  · intro accepted
    obtain ⟨header, named, checks⟩ := bind_eq_ok.mp accepted
    have typed : strict = true → c.checkTypes source = .ok () := by
      rintro rfl
      obtain ⟨_, checked, _⟩ := bind_eq_ok.mp checks
      exact checked
    rw [Clauses.run_of_accepted named typed, bind_eq_ok] at accepted
    obtain ⟨kept, passed, rest⟩ := accepted
    obtain ⟨rows, made, same⟩ := bind_eq_ok.mp rest
    cases same
    exact ⟨named, typed, kept, rows, passed, made, rfl⟩
  · rintro ⟨named, typed, kept, rows, passed, made, records⟩
    rw [Clauses.run_of_accepted named typed, bind_eq_ok]
    refine ⟨kept, passed, bind_eq_ok.mpr ⟨rows, made, ?_⟩⟩
    rw [← records]

theorem sorted_unordered {c : Clauses} (unordered : c.orderBy = none) (rows : List Row) : c.sorted rows = rows := by
  unfold Clauses.sorted
  rw [unordered]

theorem run_grouped_iff {c : Clauses} {strict : Bool} {source : List Column} {scopes : List Scope}
    {result : Stream} (grouped : c.isGrouped = true) (unordered : c.orderBy = none) :
    c.run strict source scopes = .ok result ↔
      c.header strict source = .ok result.header ∧ (strict = true → c.checkTypes source = .ok ()) ∧
        ∃ rows projected, c.passing scopes = .ok rows ∧ c.projectGroups source rows = .ok projected ∧
          result.records = projected.map Row.record := by
  have rows : ∀ rows, c.rows source rows = c.projectGroups source rows := by
    intro rows
    rw [Clauses.rows, if_pos grouped]
  simp only [run_eq_ok, rows, sorted_unordered unordered]

/-- Grouped evaluation is that of the partition. A select without ORDER BY, with GROUP BY or with
    a call in its projection, has a result if and only if its source has one, the header and the
    types of its clauses are accepted, WHERE has a value in every row, the rows that pass it have
    keys and the calls have values over the groups of the rows, and every group has a record. The
    records of the groups are then the result. -/
theorem eval_grouped_iff {checks : Checks} {tables : Tables} {c : Clauses} {source : Option Query}
    {result : Stream} (grouped : c.groupBy ≠ none ∨ ∃ e ∈ c.projection, e.outerCalls ≠ [])
    (unordered : c.orderBy = none) :
    (Query.select c source).eval checks tables = .ok result ↔
      ∃ header scopes rows groups, Query.evalSource checks tables source = .ok (header, scopes) ∧
        c.header checks.types header = .ok result.header ∧
        (checks.types = true → c.checkTypes header = .ok ()) ∧
        c.passing scopes = .ok rows ∧ c.IsGrouping rows groups ∧
        (∀ members ∈ groups, ∀ call ∈ c.projection.flatMap Expr.outerCalls, ∃ v, callOver members call = .ok v) ∧
        groups.mapM (c.groupRecord header) = .ok result.records := by
  have folds : c.isGrouped = true := by
    unfold Clauses.isGrouped
    rcases grouped with clause | ⟨e, projected, calls⟩
    · rw [Option.isSome_iff_ne_none.mpr clause]
      rfl
    · rw [Bool.or_eq_true, List.any_eq_true]
      exact .inr ⟨e, projected, (hasCall_iff e).mpr calls⟩
  have calls : ∀ call, call ∈ c.calls ↔ call ∈ c.projection.flatMap Expr.outerCalls := by
    intro call
    rw [calls_unordered unordered, mem_callsOf]
  rw [Query.eval, bind_eq_ok]
  constructor
  · rintro ⟨⟨header, scopes⟩, read, accepted⟩
    obtain ⟨named, typed, rows, projected, passed, rest, records⟩ := (run_grouped_iff folds unordered).mp accepted
    obtain ⟨groups, made, grouping, exist, each, rfl⟩ := (projectGroups_iff unordered).mp rest
    refine ⟨header, scopes, rows, groups, read, named, typed, passed, grouping, fun members inside call member => ?_, ?_⟩
    · exact exist members inside call ((calls call).mpr member)
    · rw [each, records, records_of_rows]
  · rintro ⟨header, scopes, rows, groups, read, named, typed, passed, grouping, exist, each⟩
    have rest : c.projectGroups header rows = .ok (result.records.map (⟨·, []⟩)) :=
      (projectGroups_iff unordered).mpr ⟨groups, result.records, grouping,
        fun members inside call member => exist members inside call ((calls call).mp member), each, rfl⟩
    exact ⟨(header, scopes), read, (run_grouped_iff folds unordered).mpr
      ⟨named, typed, rows, _, passed, rest, (records_of_rows result.records).symm⟩⟩

/-- The theorem at two keys, with NULL among the values of one and a call that is finished and
    not read; and without keys at no rows, where the columns of the only group are NULL and the calls
    are as they begin. -/
theorem eval_grouped_by_key :
    let c : Clauses := {
      projection := [.var "k", .case (.when (.call .boolOr (.var "b")) (.call .sum (.var "n")) .done)]
      filter := some (.not (.binary (.compare .eq) (.var "k") (.lit (.int 3))))
      groupBy := some [.var "k"]
      orderBy := none }
    let whole : Clauses := ⟨[.var "k", .call .sum (.var "n"), .call .boolOr (.var "b")], none, none, none⟩
    let header : List Column := [⟨"k", .int⟩, ⟨"n", .int⟩, ⟨"b", .bool⟩]
    let stream : Stream := ⟨header, [[.int 2, .int 5, .bool true], [.int 1, .null, .bool false],
      [.int 3, .int 8, .bool true], [.int 2, .int 7, .bool false]]⟩
    let checks : Checks := ⟨true, false⟩
    (c.groupBy ≠ none ∨ ∃ e ∈ c.projection, e.outerCalls ≠ []) ∧ c.orderBy = none ∧
      (∃ result, (Query.select c (some (.table "t"))).eval checks (fun _ => .ok stream) = .ok result ∧
        result.records = [[.int 1, .null], [.int 2, .int 12]]) ∧
      (whole.groupBy ≠ none ∨ ∃ e ∈ whole.projection, e.outerCalls ≠ []) ∧ whole.orderBy = none ∧
      ∃ result, (Query.select whole (some (.table "t"))).eval checks (fun _ => .ok ⟨header, []⟩) = .ok result ∧
        result.records = [[.null, .int 0, .bool false]] := by
  intro c whole header stream checks
  have grouped : c.groupBy ≠ none ∨ ∃ e ∈ c.projection, e.outerCalls ≠ [] := .inl (by decide)
  let one : Scope := .ofRecord header [.int 1, .null, .bool false]
  let first : Scope := .ofRecord header [.int 2, .int 5, .bool true]
  let last : Scope := .ofRecord header [.int 2, .int 7, .bool false]
  have partition : IsPartition [([.int 2], first), ([.int 1], one), ([.int 2], last)]
      [([.int 1], [one]), ([.int 2], [first, last])] := by
    have ordered : Record.Before [.int 1] [.int 2] := .rel (.ints (by decide))
    refine ⟨List.pairwise_pair.mpr ordered, fun key => ?_, by decide⟩
    simp only [List.map_cons, List.map_nil, List.mem_cons, List.not_mem_nil]
    tauto
  have byKey : (Query.select c (some (.table "t"))).eval checks (fun _ => .ok stream) =
      .ok ⟨[⟨"k", .int⟩, ⟨"case", .int⟩], [[.int 1, .null], [.int 2, .int 12]]⟩ := by
    refine (eval_grouped_iff grouped rfl).mpr ⟨header, stream.scopes, [first, one, last], [[one], [first, last]],
      rfl, rfl, fun _ => rfl, rfl, .byKey rfl rfl partition, fun members inside => ?_, rfl⟩
    rcases List.mem_pair.mp inside with rfl | rfl
    · exact mapM_ok_iff.mp ⟨[.bool false, .int 0], rfl⟩
    · exact mapM_ok_iff.mp ⟨[.bool true, .int 12], rfl⟩
  have called : whole.groupBy ≠ none ∨ ∃ e ∈ whole.projection, e.outerCalls ≠ [] :=
    .inr ⟨.call .sum (.var "n"), by decide, by decide⟩
  have noRows : (Query.select whole (some (.table "t"))).eval checks (fun _ => .ok ⟨header, []⟩) =
      .ok ⟨[⟨"k", .int⟩, ⟨"sum", .int⟩, ⟨"bool_or", .bool⟩], [[.null, .int 0, .bool false]]⟩ := by
    refine (eval_grouped_iff called rfl).mpr ⟨header, [], [], [[]], rfl, rfl, fun _ => rfl, rfl, .whole rfl,
      fun members inside => ?_, rfl⟩
    rw [List.mem_singleton.mp inside]
    exact mapM_ok_iff.mp ⟨[.int 0, .bool false], rfl⟩
  exact ⟨grouped, rfl, ⟨_, byKey, rfl⟩, called, rfl, _, noRows, rfl⟩

end StreamQuery
