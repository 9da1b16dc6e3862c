import Mathlib.Data.List.Nodup
import StreamQuery.Environment
import StreamQuery.Proofs.Grouping
import StreamQuery.Proofs.Lookup
import StreamQuery.Proofs.OptionalChecks
import StreamQuery.Proofs.ResultShape
import StreamQuery.Proofs.Summaries

/-!
# Summaries as queries

A summary of a stream is the result of a query: a select that calls each function on the column at
its place. The summary folds the first values of every record; the select binds the columns by name,
evaluates the arguments of its calls in that scope and folds them as one group. Where the names are
different both fold the same values row by row (`foldRow_columnCalls`), so they fail at the same
row with the same error, and the select projects just what was folded.
-/

namespace StreamQuery

/-- The calls of some functions on the first columns of a header, one on each. -/
def columnCalls (functions : List Aggregate) (header : List Column) : List Call :=
  (functions.map Aggregate.kind).zip (header.map fun c => .var c.name)

/-- A select of some calls, and of nothing else. -/
def selectCalls (calls : List Call) : Clauses := ⟨calls.map fun call => .call call.1 call.2, none, none, none⟩

/-- The query for the values of some functions on the first columns of a table. -/
def summaryQuery (functions : List Aggregate) (header : List Column) (name : String) : Query :=
  .select (selectCalls (columnCalls functions header)) (some (.table name))

def summaryHeader (functions : List Aggregate) : List Column := functions.map fun f => ⟨f.name, f.resultType⟩

/-! ## The calls that are collected -/

/-- Different calls are collected in their order. -/
theorem calls_selectCalls {calls : List Call} (distinct : calls.Nodup) : (selectCalls calls).calls = calls := by
  suffices general : ∀ known : List Call, (known ++ calls).Nodup →
      (calls.map fun call => Expr.call call.1 call.2).foldl Expr.addCalls known = known ++ calls by
    have all := general [] distinct
    simpa [Clauses.calls, Clauses.sortKeys, callsOf, selectCalls] using all
  clear distinct
  induction calls with
  | nil => simp
  | cons call rest ih =>
    intro known distinct
    have new : call ∉ known := fun member =>
      (List.nodup_append.mp distinct).2.2 call member call List.mem_cons_self rfl
    have added : (Expr.call call.1 call.2).addCalls known = known ++ [call] := if_neg new
    rw [List.map_cons, List.foldl_cons, added, ih _ (by simpa using distinct), List.append_assoc]
    rfl

section Columns

variable {functions : List Aggregate} {header : List Column}

/-- The functions of the calls are the functions that they were made for. -/
theorem functions_columnCalls (within : functions.length ≤ header.length) :
    functionsOf (columnCalls functions header) = functions := by
  have kinds : (columnCalls functions header).map Prod.fst = functions.map Aggregate.kind :=
    List.map_fst_zip (by rwa [List.length_map, List.length_map])
  have each : functionsOf (columnCalls functions header) =
      ((columnCalls functions header).map Prod.fst).map AggregateKind.builtin := by
    rw [List.map_map]
    rfl
  rw [each, kinds, List.map_map]
  exact List.map_id'' Aggregate.builtin_kind functions

theorem arguments_columnCalls (within : functions.length ≤ header.length) :
    (columnCalls functions header).map Prod.snd = (header.take functions.length).map fun c => .var c.name := by
  rw [columnCalls, List.zip_eq_zip_take_min, List.length_map, List.length_map, Nat.min_eq_left within,
    List.map_snd_zip (by rw [List.length_take, List.length_take, List.length_map, List.length_map]; omega),
    List.map_take]

theorem columnCalls_nodup (distinct : (header.map Column.name).Nodup) (within : functions.length ≤ header.length) :
    (columnCalls functions header).Nodup := by
  have names : ((header.take functions.length).map Column.name).Nodup :=
    distinct.sublist ((List.take_sublist _ _).map _)
  have columns : (((header.take functions.length).map Column.name).map Expr.var).Nodup :=
    names.map fun _ _ same => Expr.var.inj same
  refine List.Nodup.of_map Prod.snd ?_
  rw [arguments_columnCalls within]
  rwa [List.map_map] at columns

/-- Bound by name, the arguments of the calls are the first values of a record. -/
theorem arguments_ofRecord (distinct : (header.map Column.name).Nodup) (within : functions.length ≤ header.length)
    {record : Record} (width : record.length = header.length) :
    (columnCalls functions header).mapM (fun call => call.2.eval (Scope.ofRecord header record)) =
      .ok (record.take functions.length) := by
  have places : List.Forall₂ (fun c v => (Scope.ofRecord header record).lookup c.name = .ok v) header record :=
    List.forall₂_iff_zip.mpr ⟨width.symm, fun place => lookup_ofRecord distinct place⟩
  have evaluated : (columnCalls functions header).mapM (fun call => call.2.eval (Scope.ofRecord header record)) =
      ((columnCalls functions header).map Prod.snd).mapM (Expr.eval (Scope.ofRecord header record)) := by
    rw [List.mapM_map]
    rfl
  rw [evaluated, arguments_columnCalls within, mapM_eq_ok, List.forall₂_map_left_iff]
  exact List.forall₂_take functions.length places

/-! ## Folding by name and by place -/

/-- A row of the select does to the groups what a record of the summary does. -/
theorem foldRow_columnCalls (distinct : (header.map Column.name).Nodup) (within : functions.length ≤ header.length)
    {record : Record} (width : record.length = header.length) (folded : Clauses.Folded) :
    summarize.addRecord functions folded.groups record =
      Clauses.Folded.groups <$> (selectCalls (columnCalls functions header)).foldRow (columnCalls functions header)
        folded (Scope.ofRecord header record) := by
  have rowKey : (selectCalls (columnCalls functions header)).keyed (Scope.ofRecord header record) =
      .ok ([], Scope.ofRecord header record) := keyed_eq_ok.mpr ⟨rfl, rfl⟩
  have wide : ¬ record.length < functions.length := by omega
  rcases added : folded.groups.add [] (record.take functions.length) with ⟨outcome, groups⟩
  rw [foldRow_eq rowKey (arguments_ofRecord distinct within width) added, summarize.addRecord, if_neg wide, added]
  cases outcome <;> rfl

/-- The select folds a stream into the groups that the summary folds it into, or fails with it. -/
theorem fold_columnCalls {s : Stream} (distinct : (s.header.map Column.name).Nodup) (rectangular : s.Rectangular)
    (within : functions.length ≤ s.header.length) :
    Clauses.Folded.groups <$> (selectCalls (columnCalls functions s.header)).fold s.scopes =
      s.records.foldlM (summarize.addRecord functions) (.empty functions) := by
  unfold Clauses.fold Stream.scopes
  rw [calls_selectCalls (columnCalls_nodup distinct within), functions_columnCalls within, List.foldlM_map]
  refine (foldlM_view fun folded record member => ?_).symm
  exact foldRow_columnCalls distinct within (rectangular record member) folded

/-! ## The result -/

/-- A group is projected to the values of the calls over its rows. -/
theorem projectFrom_selectCalls {calls : List Call} {rows : List Scope} {values : List Value} (source : List Column)
    (finished : calls.mapM (callOver rows) = .ok values) :
    (selectCalls calls).projectFrom (groupBasis source rows) = .ok ⟨values, []⟩ := by
  have each : (selectCalls calls).projection.mapM (Expr.evalBy (callOver rows) (groupScope source rows)) =
      calls.mapM (callOver rows) := List.mapM_map
  rw [projectFrom_unordered rfl, groupBasis, each, finished]
  rfl

/-- A select of different calls has one row, what the only group ends with. -/
theorem projectGroups_selectCalls {calls : List Call} (distinct : calls.Nodup) (source : List Column)
    (rows : List Scope) :
    (selectCalls calls).projectGroups source rows =
      (fun folded => [⟨(folded.groups.resultsOfOne.head?.map Prod.snd).getD [], []⟩]) <$>
        (selectCalls calls).fold rows := by
  rw [projectGroups_eq]
  cases outcome : (selectCalls calls).fold rows with
  | error e => rfl
  | ok folded =>
    have folds := folds_of_fold outcome
    obtain ⟨whole, states, one, finished⟩ := folds.results_ungrouped rfl
    have result : folded.groups.resultsOfOne = [([], states)] := one
    rw [calls_selectCalls distinct] at finished
    refine folds.projected.trans ?_
    rw [one, List.map_singleton, List.map_singleton, whole]
    refine mapM_cons_eq_ok.mpr ⟨_, [], projectFrom_selectCalls source finished, rfl, ?_⟩
    dsimp only
    rw [result]
    rfl

theorem isGrouped_selectCalls {calls : List Call} (nonempty : calls ≠ []) : (selectCalls calls).isGrouped = true := by
  obtain ⟨call, rest, rfl⟩ := List.exists_cons_of_ne_nil nonempty
  rfl

/-- The select has one row, the summary, and fails where the summary does. -/
theorem projectGroups_columnCalls {s : Stream} (distinct : (s.header.map Column.name).Nodup)
    (rectangular : s.Rectangular) (within : functions.length ≤ s.header.length) :
    (selectCalls (columnCalls functions s.header)).projectGroups s.header s.scopes =
      (fun result => [⟨result, []⟩]) <$> summarize functions s := by
  rw [projectGroups_selectCalls (columnCalls_nodup distinct within), summarize,
    ← fold_columnCalls distinct rectangular within]
  cases (selectCalls (columnCalls functions s.header)).fold s.scopes <;> rfl

theorem header_columnCalls (within : functions.length ≤ header.length) :
    (selectCalls (columnCalls functions header)).header false header = .ok (summaryHeader functions) := by
  have each : ∀ call : Call, Expr.inferColumn false header (.call call.1 call.2) =
      .ok ⟨call.1.builtin.name, call.1.builtin.resultType⟩ := by
    intro call
    obtain ⟨t, typed⟩ := infer_lenient header call.2
    rw [call.1.name_builtin]
    refine bind_eq_ok.mpr ⟨call.1.builtin.resultType, ?_, rfl⟩
    exact bind_eq_ok.mpr ⟨call.1.builtin, call.1.function_eq, bind_eq_ok.mpr ⟨t, typed, rfl⟩⟩
  have columns : summaryHeader functions =
      (columnCalls functions header).map fun call => ⟨call.1.builtin.name, call.1.builtin.resultType⟩ := by
    have all : summaryHeader functions = (functionsOf (columnCalls functions header)).map fun f =>
        ⟨f.name, f.resultType⟩ := by rw [functions_columnCalls within, summaryHeader]
    rw [all, functionsOf, List.map_map]
    rfl
  rw [columns]
  refine mapM_eq_ok.mpr (List.forall₂_map_left_iff.mpr (List.forall₂_map_right_iff.mpr ?_))
  exact List.forall₂_same.mpr fun call _ => each call

end Columns

/-- Summaries are queries. Where the columns of a table have different names and its records the width
    of its header, the query for the values of some functions on its first columns has one record, the
    summary of the table by these functions, and fails with the error of the summary where that fails.
    The values may be of any type. -/
theorem eval_summaryQuery {ε : Type} [Environment ε] {environment : ε} {name : String} {s : Stream}
    {functions : List Aggregate} (distinct : (s.header.map Column.name).Nodup) (rectangular : s.Rectangular)
    (nonempty : functions ≠ []) (within : functions.length ≤ s.header.length)
    (serves : Environment.lookup environment name = .ok s) :
    (summaryQuery functions s.header name).eval ⟨false, false⟩ (Environment.lookup environment) =
      (fun result => ⟨summaryHeader functions, [result]⟩) <$> summarize functions s := by
  have read : Query.evalSource ⟨false, false⟩ (Environment.lookup environment) (some (.table name)) =
      .ok (s.header, s.scopes) := by
    refine bind_eq_ok.mpr ⟨s, ?_, rfl⟩
    exact bind_eq_ok.mpr ⟨s, serves, rfl⟩
  have calls : columnCalls functions s.header ≠ [] := by
    intro none
    refine nonempty ?_
    rw [← functions_columnCalls within, none]
    rfl
  have rows : (selectCalls (columnCalls functions s.header)).rows s.header s.scopes =
      (fun result => [⟨result, []⟩]) <$> summarize functions s := by
    rw [Clauses.rows, if_pos (isGrouped_selectCalls calls), projectGroups_columnCalls distinct rectangular within]
  rw [summaryQuery, Query.eval, read]
  refine (Clauses.run_of_accepted (header_columnCalls within) (absurd · Bool.false_ne_true) s.scopes).trans ?_
  -- Without WHERE every row passes, and without ORDER BY the rows stay as they are.
  show (do
    let rows ← (selectCalls (columnCalls functions s.header)).rows s.header s.scopes
    .ok ⟨summaryHeader functions, rows.map Row.record⟩ : Except Error Stream) = _
  rw [rows]
  cases summarize functions s <;> rfl

/-- The theorem at a table of a host whose first two columns hold values of other types than their own.
    By two functions they are summed up; with a third one the sum over the last column leaves its range. -/
theorem eval_summaryQuery_mistyped :
    let s : Stream := ⟨[⟨"n", .bool⟩, ⟨"b", .int⟩, ⟨"m", .int⟩],
      [[.int 2, .null, .int 1], [.null, .bool true, .int maxInt], [.int 5, .bool false, .bool true]]⟩
    let host : HostTables := ⟨[("t", s)]⟩
    (s.header.map Column.name).Nodup ∧ s.Rectangular ∧ Environment.lookup host "t" = .ok s ∧
      (summaryQuery [.sum, .boolOr] s.header "t").eval ⟨false, false⟩ (Environment.lookup host) =
        .ok ⟨[⟨"sum", .int⟩, ⟨"bool_or", .bool⟩], [[.int 7, .bool true]]⟩ ∧
      (summaryQuery [.sum, .boolOr, .sum] s.header "t").eval ⟨false, false⟩ (Environment.lookup host) =
        .error (.invalidValue .sumOverflow) := by
  intro s host
  have distinct : (s.header.map Column.name).Nodup := by decide
  have rectangular : s.Rectangular := by simp [s, Stream.Rectangular]
  have serves : Environment.lookup host "t" = .ok s := rfl
  refine ⟨distinct, rectangular, serves, ?_, ?_⟩
  · exact (eval_summaryQuery distinct rectangular (by decide) (by decide) serves).trans rfl
  · exact (eval_summaryQuery distinct rectangular (by decide) (by decide) serves).trans rfl

end StreamQuery
