import StreamQuery.Proofs.ResultTypes

/-!
# Headers and widths of results

The header of a result is known before any record is read: `Query.header` finds it from the headers
of the tables alone, and a query that has a result has it under that header. Records are as wide as
their header wherever the tables are; a table whose records are not is refused by the check of
sources, and neither selects nor unions nor cross joins make a record of another width.
-/

namespace StreamQuery

/-! ## Results of parts -/

section Parts

variable {checks : Checks} {tables : Tables} {p : Query → Stream → Prop}

/-- A property that results have if the results of their parts do, by the kinds of queries. -/
structure Inherited (checks : Checks) (tables : Tables) (p : Query → Stream → Prop) : Prop where
  table : ∀ name s, checks.table tables name = .ok s → p (.table name) s
  constant : ∀ c s, c.run checks.types [] [Scope.empty] = .ok s → p (.select c none) s
  select : ∀ c q t s, p q t → c.run checks.types t.header t.scopes = .ok s → p (.select c (some q)) s
  unionAll : ∀ queries streams s, List.Forall₂ p queries streams → Stream.unionAll streams = .ok s →
    p (.unionAll queries) s
  crossJoin : ∀ queries streams, List.Forall₂ p queries streams → p (.crossJoin queries) (Stream.crossJoin streams)

mutual

/-- A property that results have if those of their parts do is one of every result. -/
theorem Inherited.eval (inherited : Inherited checks tables p) :
    ∀ {q : Query} {s : Stream}, q.eval checks tables = .ok s → p q s
  | .table name, s, evaluated => inherited.table name s evaluated
  | .select c none, s, evaluated => by
    obtain ⟨_, read, run⟩ := bind_eq_ok.mp evaluated
    cases read
    exact inherited.constant c s run
  | .select c (some q), s, evaluated => by
    obtain ⟨_, read, run⟩ := bind_eq_ok.mp evaluated
    obtain ⟨t, inner, same⟩ := bind_eq_ok.mp read
    cases same
    exact inherited.select c q t s (inherited.eval inner) run
  | .unionAll queries, s, evaluated => by
    obtain ⟨streams, members, joined⟩ := bind_eq_ok.mp evaluated
    exact inherited.unionAll queries streams s (inherited.evalAll members) joined
  | .crossJoin queries, s, evaluated => by
    obtain ⟨streams, members, same⟩ := bind_eq_ok.mp evaluated
    cases same
    exact inherited.crossJoin queries streams (inherited.evalAll members)

theorem Inherited.evalAll (inherited : Inherited checks tables p) :
    ∀ {queries : List Query} {streams : List Stream}, Query.evalAll checks tables queries = .ok streams →
      List.Forall₂ p queries streams
  | [], streams, evaluated => by
    cases evaluated
    exact .nil
  | q :: rest, streams, evaluated => by
    obtain ⟨s, first, evaluated⟩ := bind_eq_ok.mp evaluated
    obtain ⟨others, later, same⟩ := bind_eq_ok.mp evaluated
    cases same
    exact .cons (inherited.eval first) (inherited.evalAll later)

end

end Parts

/-! ## Headers -/

/-- The header of the cross join of streams with the given headers. -/
def joinedHeader (headers : List (List Column)) : List Column :=
  (Stream.crossJoin (headers.map Stream.ofHeader)).header

theorem header_crossJoin (streams : List Stream) :
    (Stream.crossJoin streams).header = joinedHeader (streams.map Stream.header) := by
  simp only [joinedHeader, Stream.crossJoin, List.map_map, List.zipIdx_map, List.flatMap_map]
  rfl

/-- The first stream of a union gives the header. -/
theorem header_unionAll {streams : List Stream} {s : Stream} (joined : Stream.unionAll streams = .ok s) :
    s.header = (streams.map Stream.header).head?.getD [] := by
  cases streams with
  | nil =>
    cases joined
    rfl
  | cons first rest =>
    obtain ⟨_, _, same⟩ := bind_eq_ok.mp joined
    cases same
    rfl

mutual

/-- The header of the result of a query, found from the headers of the tables. -/
def Query.header (strict : Bool) (headers : String → List Column) : Query → Except Error (List Column)
  | .table name => .ok (headers name)
  | .select clauses source => do
    let columns ← Query.sourceHeader strict headers source
    clauses.header strict columns
  | .unionAll queries => do
    let members ← Query.allHeaders strict headers queries
    .ok (members.head?.getD [])
  | .crossJoin queries => do
    let members ← Query.allHeaders strict headers queries
    .ok (joinedHeader members)

def Query.allHeaders (strict : Bool) (headers : String → List Column) :
    List Query → Except Error (List (List Column))
  | [] => .ok []
  | q :: rest => do
    let first ← q.header strict headers
    let others ← Query.allHeaders strict headers rest
    .ok (first :: others)

/-- The columns that a select reads; without a source there are none. -/
def Query.sourceHeader (strict : Bool) (headers : String → List Column) : Option Query → Except Error (List Column)
  | none => .ok []
  | some q => q.header strict headers

end

theorem allHeaders_eq_mapM (strict : Bool) (headers : String → List Column) (queries : List Query) :
    Query.allHeaders strict headers queries = queries.mapM (Query.header strict headers) := by
  induction queries with
  | nil => rfl
  | cons q rest ih =>
    rw [Query.allHeaders, ih, List.mapM_cons]
    rfl

/-- Members with known headers are known as a list. -/
theorem allHeaders_eq_ok {strict : Bool} {headers : String → List Column} {queries : List Query}
    {streams : List Stream} (each : List.Forall₂ (fun q s => q.header strict headers = .ok s.header) queries streams) :
    Query.allHeaders strict headers queries = .ok (streams.map Stream.header) := by
  rw [allHeaders_eq_mapM]
  exact mapM_eq_ok.mpr (List.forall₂_map_right_iff.mpr each)

/-- A result has the header that is found without its records. -/
theorem header_inherited {checks : Checks} {tables : Tables} {headers : String → List Column}
    (known : ∀ name s, tables name = .ok s → s.header = headers name) :
    Inherited checks tables fun q s => q.header checks.types headers = .ok s.header where
  table name s found := by
    rw [Query.header, known name s (table_eq_ok.mp found).1]
  constant c s run := (run_eq_ok.mp run).1
  select c q t s inner run := bind_eq_ok.mpr ⟨t.header, inner, (run_eq_ok.mp run).1⟩
  unionAll queries streams s members joined := by
    rw [header_unionAll joined]
    exact bind_eq_ok.mpr ⟨_, allHeaders_eq_ok members, rfl⟩
  crossJoin queries streams members := by
    rw [header_crossJoin]
    exact bind_eq_ok.mpr ⟨_, allHeaders_eq_ok members, rfl⟩

/-! ## Widths -/

/-- A stream whose records have one value for each column of the header. -/
def Stream.Rectangular (s : Stream) : Prop := ∀ record ∈ s.records, record.length = s.header.length

theorem rectangular_of_check {s : Stream} (valid : s.check = .ok ()) : s.Rectangular :=
  fun record member => (check_eq_ok.mp valid record member).length_eq.symm

/-- A projected record has one value for each item, and so does the header. -/
theorem rectangular_run {c : Clauses} {strict : Bool} {source : List Column} {scopes : List Scope} {s : Stream}
    (run : c.run strict source scopes = .ok s) : s.Rectangular := by
  obtain ⟨named, _, kept, rows, _, projected, records⟩ := run_eq_ok.mp run
  intro record member
  rw [records] at member
  obtain ⟨row, inside, rfl⟩ := List.mem_map.mp member
  obtain ⟨bases, _, _, each⟩ := rows_eq_ok.mp projected
  obtain ⟨basis, _, made⟩ := mem_of_mapM each row (mem_sorted.mp inside)
  rw [length_of_mapM (projectFrom_eq_ok.mp made).1, length_of_mapM named]

theorem rectangular_unionAll {streams : List Stream} {s : Stream} (each : ∀ member ∈ streams, member.Rectangular)
    (joined : Stream.unionAll streams = .ok s) : s.Rectangular := by
  cases streams with
  | nil =>
    cases joined
    exact fun record member => nomatch member
  | cons first rest =>
    obtain ⟨_, widths, same⟩ := bind_eq_ok.mp joined
    cases same
    rw [List.forall_mem_cons] at each
    intro record member
    rcases List.mem_append.mp member with inFirst | inRest
    · exact each.1 record inFirst
    · obtain ⟨other, inside, place⟩ := List.mem_flatMap.mp inRest
      have width := forM_eq_ok.mp widths other inside
      unfold Stream.checkWidth at width
      split_ifs at width with same
      rw [each.2 other inside record place]
      exact same

theorem rectangular_crossJoin {streams : List Stream} (each : ∀ member ∈ streams, member.Rectangular) :
    (Stream.crossJoin streams).Rectangular := by
  intro record member
  obtain ⟨choice, inside, rfl⟩ := List.mem_map.mp member
  have widths : ∀ s ∈ streams, ∀ record ∈ s.records, List.Forall₂ (fun _ _ => True) s.header record := by
    intro s stream record place
    exact List.forall₂_iff_zip.mpr ⟨(each s stream record place).symm, fun _ => trivial⟩
  exact (forall₂_joined (R := fun _ _ => True) widths 0 choice inside).length_eq.symm

theorem rectangular_members {queries : List Query} {streams : List Stream}
    (members : List.Forall₂ (fun _ s => Stream.Rectangular s) queries streams) : ∀ s ∈ streams, s.Rectangular := by
  induction members with
  | nil => simp
  | cons here _ ih => exact List.forall_mem_cons.mpr ⟨here, ih⟩

/-- With the check of sources, results are as wide as their headers. -/
theorem rectangular_inherited {checks : Checks} (validated : checks.sources = true) (tables : Tables) :
    Inherited checks tables fun _ s => s.Rectangular where
  table _ _ found := rectangular_of_check ((table_eq_ok.mp found).2 validated)
  constant _ _ run := rectangular_run run
  select _ _ _ _ _ run := rectangular_run run
  unionAll _ _ _ members joined := rectangular_unionAll (rectangular_members members) joined
  crossJoin _ _ members := rectangular_crossJoin (rectangular_members members)

/-- The header of a result does not depend on the records of the tables, and a result is as wide as
    its header. A query that has results over two environments whose tables have the same headers has
    them under one header. With the check of sources every record of a result has one value for each
    column of the header, whatever the tables hold. -/
theorem eval_shape (checks : Checks) (q : Query) :
    (∀ one other : Tables, (∀ name s t, one name = .ok s → other name = .ok t → s.header = t.header) →
      ∀ s t, q.eval checks one = .ok s → q.eval checks other = .ok t → s.header = t.header) ∧
    (checks.sources = true → ∀ (tables : Tables) s, q.eval checks tables = .ok s →
      ∀ record ∈ s.records, record.length = s.header.length) := by
  refine ⟨fun one other agree s t first second => ?_, fun validated tables s evaluated => ?_⟩
  · -- A table that one environment lacks may have any header there.
    let headers : String → List Column := fun name =>
      match one name, other name with
      | .ok s, _ => s.header
      | .error _, .ok t => t.header
      | .error _, .error _ => []
    have inOne : ∀ name s, one name = .ok s → s.header = headers name := by
      intro name s found
      simp only [headers, found]
    have inOther : ∀ name t, other name = .ok t → t.header = headers name := by
      intro name t found
      cases here : one name with
      | ok s => simp only [headers, here, agree name s t here found]
      | error e => simp only [headers, here, found]
    have left := (header_inherited inOne).eval first
    have right := (header_inherited inOther).eval second
    exact Except.ok.inj (left.symm.trans right)
  · exact (rectangular_inherited validated tables).eval evaluated

/-- The theorem at a grouped select over a union whose members have different types and over a table
    that is empty in one environment and not in the other, and at a table with a short record. -/
theorem eval_shape_union :
    let checks : Checks := ⟨false, true⟩
    let header : List Column := [⟨"k", .int⟩, ⟨"b", .bool⟩]
    let one : Tables := fun name => if name = "t" then .ok ⟨header, []⟩ else .error (.tableNotFound name)
    let other : Tables := fun _ => .ok ⟨header, [[.int 2, .null], [.int 1, .bool true]]⟩
    let ragged : Tables := fun _ => .ok ⟨header, [[.int 2]]⟩
    let grouped : Query := .select ⟨[.call .sum (.var "k")], none, none, none⟩ (some (.table "t"))
    let constant : Query := .select ⟨[.lit (.bool false)], none, none, none⟩ none
    let q : Query := .crossJoin [.unionAll [grouped, constant], .table "t"]
    let joined : List Column := [⟨"$0.sum", .int⟩, ⟨"$1.k", .int⟩, ⟨"$1.b", .bool⟩]
    (∀ name s t, one name = .ok s → other name = .ok t → s.header = t.header) ∧ checks.sources = true ∧
      q.eval checks one = .ok ⟨joined, []⟩ ∧
      (∀ t, q.eval checks other = .ok t → t.header = joined ∧ ∀ record ∈ t.records, record.length = 3) ∧
      q.eval ⟨false, false⟩ ragged = .ok ⟨joined, [[.int 2, .int 2], [.bool false, .int 2]]⟩ := by
  intro checks header one other ragged grouped constant q joined
  have agree : ∀ name s t, one name = .ok s → other name = .ok t → s.header = t.header := by
    intro name s t first second
    cases second
    simp only [one] at first
    split_ifs at first
    cases first
    rfl
  have empty : q.eval checks one = .ok ⟨joined, []⟩ := by decide
  refine ⟨agree, rfl, empty, fun t evaluated => ?_, by decide⟩
  obtain ⟨static, wide⟩ := eval_shape checks q
  have same : joined = t.header := static one other agree _ t empty evaluated
  refine ⟨same.symm, fun record member => ?_⟩
  rw [wide rfl other t evaluated record member, ← same]
  rfl

end StreamQuery
