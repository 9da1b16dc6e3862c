import StreamQuery.Proofs.Grouping
import StreamQuery.Proofs.StableSort

/-!
# Ordered selects

A select with ORDER BY makes the rows that it makes without, and sorts them. Every row is projected
from a basis: a row that passes WHERE, in which no call has a value, or a group with the values of
its calls. The bases do not depend on ORDER BY. With it more calls are folded, and every basis has a
list of sort keys besides its record, evaluated where the new names of the projection hide those of
the row.
-/

namespace StreamQuery

/-! ## What rows are projected from -/

/-- What the rows of a select are projected from: every row that passes WHERE, in which no call has a
    value, or the groups of those rows. -/
inductive Clauses.HasBases (c : Clauses) (source : List Column) (kept : List Scope) : List Basis → Prop where
  | rows (plain : c.isGrouped = false) : HasBases c source kept (kept.map (⟨·, Finished.value []⟩))
  | groups {groups : List (List Scope)} (folded : c.isGrouped = true) (grouping : c.IsGrouping kept groups) :
      HasBases c source kept (groups.map (groupBasis source))

/-- The rows of a select are projected from their bases one by one, if every call has a value in
    every group. -/
theorem rows_eq_ok {c : Clauses} {source : List Column} {kept : List Scope} {rows : List Row} :
    c.rows source kept = .ok rows ↔
      ∃ bases, c.HasBases source kept bases ∧
        (c.isGrouped = true → ∀ basis ∈ bases, ∀ call ∈ c.calls, ∃ v, basis.calls call = .ok v) ∧
        bases.mapM c.projectFrom = .ok rows := by
  unfold Clauses.rows
  cases grouped : c.isGrouped with
  | true =>
    rw [if_pos rfl, projectGroups_eq_ok]
    constructor
    · rintro ⟨groups, grouping, exist, each⟩
      refine ⟨_, .groups grouped grouping, fun _ basis member => ?_, each⟩
      obtain ⟨members, inside, rfl⟩ := List.mem_map.mp member
      exact exist members inside
    · rintro ⟨bases, has, exist, each⟩
      cases has with
      | rows plain =>
        rw [grouped] at plain
        cases plain
      | @groups groups _ grouping =>
        exact ⟨groups, grouping, fun members inside => exist rfl _ (List.mem_map_of_mem inside), each⟩
  | false =>
    have projected : kept.mapM (c.project []) = (kept.map (⟨·, Finished.value []⟩)).mapM c.projectFrom := by
      rw [List.mapM_map]
      exact mapM_congr fun scope _ => project_eq c [] scope
    rw [if_neg Bool.false_ne_true, projected]
    constructor
    · intro each
      exact ⟨_, .rows grouped, nofun, each⟩
    · rintro ⟨bases, has, _, each⟩
      cases has with
      | rows _ => exact each
      | groups folded _ =>
        rw [grouped] at folded
        cases folded

/-! ## Without sort keys -/

def Clauses.unordered (c : Clauses) : Clauses := { c with orderBy := none }

theorem hasBases_unordered {c : Clauses} {source : List Column} {kept : List Scope} {bases : List Basis}
    (has : c.HasBases source kept bases) : c.unordered.HasBases source kept bases := by
  cases has with
  | rows plain => exact .rows plain
  | groups folded grouping =>
    refine .groups folded ?_
    cases grouping with
    | byKey grouped keys partition => exact .byKey grouped keys partition
    | whole ungrouped => exact .whole ungrouped

/-- Without sort keys fewer calls are folded. -/
theorem calls_subset (c : Clauses) : c.unordered.calls ⊆ c.calls := by
  intro call member
  rw [calls_unordered rfl, mem_callsOf] at member
  unfold Clauses.calls
  rw [mem_callsOf, List.flatMap_append]
  exact List.mem_append_left _ member

theorem checkTypes_unordered {c : Clauses} {source : List Column} (checked : c.checkTypes source = .ok ()) :
    c.unordered.checkTypes source = .ok () := by
  obtain ⟨_, condition, checked⟩ := bind_eq_ok.mp checked
  obtain ⟨_, groupKeys, _⟩ := bind_eq_ok.mp checked
  exact bind_eq_ok.mpr ⟨(), condition, bind_eq_ok.mpr ⟨(), groupKeys, rfl⟩⟩

theorem projectFrom_eq_ok {c : Clauses} {basis : Basis} {row : Row} :
    c.projectFrom basis = .ok row ↔
      c.projection.mapM (Expr.evalBy basis.calls basis.scope) = .ok row.record ∧
        c.sortKeys.mapM (Expr.evalBy basis.calls (basis.scope.bindAliases c.projection row.record)) = .ok row.keys := by
  unfold Clauses.projectFrom
  rw [bind_eq_ok]
  constructor
  · rintro ⟨record, values, rest⟩
    obtain ⟨keys, evaluated, same⟩ := bind_eq_ok.mp rest
    cases same
    exact ⟨values, evaluated⟩
  · rintro ⟨values, evaluated⟩
    exact ⟨row.record, values, bind_eq_ok.mpr ⟨row.keys, evaluated, rfl⟩⟩

/-- Without sort keys the rows are the same but for those. -/
theorem rows_unordered {c : Clauses} {source : List Column} {kept : List Scope} {rows : List Row}
    (made : c.rows source kept = .ok rows) :
    c.unordered.rows source kept = .ok (rows.map fun row => ⟨row.record, []⟩) := by
  obtain ⟨bases, has, exist, each⟩ := rows_eq_ok.mp made
  -- The calls that are not folded any more are those of the sort keys alone.
  refine rows_eq_ok.mpr ⟨bases, hasBases_unordered has, fun folded basis member call called => ?_, ?_⟩
  · exact exist folded basis member call (calls_subset c called)
  · refine mapM_eq_ok.mpr (List.forall₂_map_right_iff.mpr ((mapM_eq_ok.mp each).imp fun basis row projected => ?_))
    exact projectFrom_eq_ok.mpr ⟨(projectFrom_eq_ok.mp projected).1, rfl⟩

/-! ## The scope of sort keys -/

/-- The new names that a projection gives to its values, in order. -/
def aliases : List Expr → Record → List (String × Value)
  | .rename _ name :: es, v :: vs => (name, v) :: aliases es vs
  | _ :: es, _ :: vs => aliases es vs
  | _, _ => []

/-- The scope with other bindings before its own, the last of them first. -/
def Scope.overlaid (scope : Scope) (bindings : List (String × Value)) : Scope :=
  ⟨bindings.reverse ++ scope.bindings⟩

theorem overlaid_cons (scope : Scope) (name : String) (v : Value) (bindings : List (String × Value)) :
    scope.overlaid ((name, v) :: bindings) = (scope.bind name v).overlaid bindings := by
  unfold Scope.overlaid Scope.bind
  rw [List.reverse_cons, List.append_assoc]
  rfl

theorem bindAliases_eq (scope : Scope) (es : List Expr) (record : Record) :
    scope.bindAliases es record = scope.overlaid (aliases es record) := by
  induction es generalizing scope record with
  | nil => rfl
  | cons e es ih =>
    cases record with
    | nil => cases e <;> rfl
    | cons v vs =>
      cases e with
      | rename inner name =>
        rw [aliases, overlaid_cons, ← ih]
        rfl
      | _ => exact ih scope vs

/-- A row that is made from a basis: its record is the projection, and its keys are evaluated where
    the new names of the projection hide those that the basis reads, the last of them first. -/
structure Basis.Makes (projection : List Expr) (order : List (Expr × Direction)) (basis : Basis) (row : Row) :
    Prop where
  record : projection.mapM (Expr.evalBy basis.calls basis.scope) = .ok row.record
  keys : (order.map Prod.fst).mapM
    (Expr.evalBy basis.calls (basis.scope.overlaid (aliases projection row.record))) = .ok row.keys

/-- ORDER BY sorts the result without it, and does so stably. If a select with ORDER BY has a
    result, it has one without, under the same header. Its rows are made from the same bases, and
    its records are theirs in the order of their sort keys. -/
theorem eval_ordered {checks : Checks} {tables : Tables} {c : Clauses} {source : Option Query}
    {order : List (Expr × Direction)} {result : Stream} (ordered : c.orderBy = some order)
    (evaluated : (Query.select c source).eval checks tables = .ok result) :
    ∃ plain : Stream, (Query.select { c with orderBy := none } source).eval checks tables = .ok plain ∧
      plain.header = result.header ∧
      ∃ header scopes kept bases rows sorted, Query.evalSource checks tables source = .ok (header, scopes) ∧
        c.passing scopes = .ok kept ∧ c.HasBases header kept bases ∧
        List.Forall₂ (Basis.Makes c.projection order) bases rows ∧ plain.records = rows.map Row.record ∧
        StableSort (order.map Prod.snd) rows sorted ∧ result.records = sorted.map Row.record := by
  have expressions : c.sortKeys = order.map Prod.fst := by rw [Clauses.sortKeys, ordered, Option.getD_some]
  have directions : c.directions = order.map Prod.snd := by rw [Clauses.directions, ordered, Option.getD_some]
  obtain ⟨⟨header, scopes⟩, read, run⟩ := bind_eq_ok.mp evaluated
  obtain ⟨named, typed, kept, rows, passed, made, records⟩ := run_eq_ok.mp run
  obtain ⟨bases, has, _, each⟩ := rows_eq_ok.mp made
  have makes : List.Forall₂ (Basis.Makes c.projection order) bases rows := by
    refine (mapM_eq_ok.mp each).imp fun basis row projected => ?_
    obtain ⟨record, keys⟩ := projectFrom_eq_ok.mp projected
    rw [expressions, bindAliases_eq] at keys
    exact ⟨record, keys⟩
  have widths : ∀ row ∈ rows, row.keys.length = (order.map Prod.snd).length := by
    intro row member
    obtain ⟨basis, _, projected⟩ := mem_of_mapM each row member
    rw [length_of_mapM (projectFrom_eq_ok.mp projected).2, expressions, List.length_map, List.length_map]
  have sorted : c.sorted rows = Row.sort (order.map Prod.snd) rows := by
    unfold Clauses.sorted
    rw [ordered, directions]
  have plain : (Query.select c.unordered source).eval checks tables = .ok ⟨result.header, rows.map Row.record⟩ := by
    refine bind_eq_ok.mpr ⟨(header, scopes), read, run_eq_ok.mpr ⟨named, ?_, kept, _, passed, rows_unordered made, ?_⟩⟩
    · intro strict
      exact checkTypes_unordered (typed strict)
    · rw [sorted_unordered rfl, List.map_map]
      rfl
  exact ⟨_, plain, rfl, header, scopes, kept, bases, rows, c.sorted rows, read, passed, has, makes, rfl,
    sorted ▸ stableSort_sort widths, records⟩

/-- The theorem at groups that are sorted by a call that the projection does not have and, in the
    other direction, by a name that hides a column. One key is NULL. -/
theorem eval_ordered_groups :
    let tables : Tables := fun _ =>
      .ok ⟨[⟨"k", .int⟩, ⟨"n", .int⟩], [[.int 3, .int 2], [.null, .int 5], [.int 3, .int 3]]⟩
    let order : List (Expr × Direction) := [(.call .sum (.var "n"), .ascending), (.var "n", .descending)]
    let c : Clauses := ⟨[.rename (.var "k") "n"], none, some [.var "k"], some order⟩
    let q : Query := .select c (some (.table "t"))
    let result : Stream := ⟨[⟨"n", .int⟩], [[.null], [.int 3]]⟩
    c.orderBy = some order ∧ q.eval ⟨true, true⟩ tables = .ok result ∧
      ∃ plain rows sorted, (Query.select { c with orderBy := none } (some (.table "t"))).eval ⟨true, true⟩ tables =
          .ok plain ∧
        plain.records = [[.int 3], [.null]] ∧ plain.records = rows.map Row.record ∧
        StableSort [.ascending, .descending] rows sorted ∧ result.records = sorted.map Row.record := by
  intro tables order c q result
  have behind : Row.compareKeys [.int 5, .int 3] [.int 5, .null] [.ascending, .descending] = .gt := by decide
  have sort : Row.sort [.ascending, .descending] [⟨[.int 3], [.int 5, .int 3]⟩, ⟨[.null], [.int 5, .null]⟩] =
      [⟨[.null], [.int 5, .null]⟩, ⟨[.int 3], [.int 5, .int 3]⟩] := by
    simp [Row.sort, List.mergeSort, List.MergeSort.Internal.splitInTwo, behind]
  have evaluated : q.eval ⟨true, true⟩ tables = .ok result := by
    refine bind_eq_ok.mpr ⟨_, rfl, run_eq_ok.mpr ⟨rfl, fun _ => rfl, _, _, rfl, rfl, ?_⟩⟩
    exact congrArg (List.map Row.record) sort.symm
  obtain ⟨plain, without, _, header, scopes, kept, bases, rows, sorted, _, _, _, _, records, stable, same⟩ :=
    eval_ordered rfl evaluated
  have known : (Query.select { c with orderBy := none } (some (.table "t"))).eval ⟨true, true⟩ tables =
      .ok ⟨[⟨"n", .int⟩], [[.int 3], [.null]]⟩ := by
    decide
  refine ⟨rfl, evaluated, plain, rows, sorted, without, ?_, records, stable, same⟩
  rw [known] at without
  cases without
  rfl

end StreamQuery
