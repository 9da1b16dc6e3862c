import StreamQuery.Query.Select
import StreamQuery.Stream.Product
import StreamQuery.Stream.Union

/-!
# Results of queries

A query results in a stream. The parts of a union or of a cross join are evaluated in
order, and so is the source of a select before its rows; the first error is the result.
-/

namespace StreamQuery

/-- The optional checks: of types before any row is read, and of tables against their own
    headers. -/
structure Checks where
  types : Bool
  sources : Bool
  deriving DecidableEq

/-- Where a query finds the tables that it names. -/
abbrev Tables := String → Except Error Stream

/-- A table's stream, checked against its own header if that is asked for. -/
def Checks.table (checks : Checks) (tables : Tables) (name : String) : Except Error Stream :=
  do
    let s ← tables name
    if checks.sources then s.check
    .ok s

def Stream.scopes (s : Stream) : List Scope := s.records.map (Scope.ofRecord s.header)

mutual

def Query.eval (checks : Checks) (tables : Tables) : Query → Except Error Stream
  | .table name => checks.table tables name
  | .select clauses source => do
    let (header, scopes) ← Query.evalSource checks tables source
    clauses.run checks.types header scopes
  | .unionAll queries => do
    let streams ← Query.evalAll checks tables queries
    Stream.unionAll streams
  | .crossJoin queries => do
    let streams ← Query.evalAll checks tables queries
    .ok (Stream.crossJoin streams)

def Query.evalAll (checks : Checks) (tables : Tables) :
    List Query → Except Error (List Stream)
  | [] => .ok []
  | q :: rest => do
    let s ← q.eval checks tables
    let others ← Query.evalAll checks tables rest
    .ok (s :: others)

/-- The header and the scopes of the rows that a select reads. Without a source it reads
    one row without columns. -/
def Query.evalSource (checks : Checks) (tables : Tables) :
    Option Query → Except Error (List Column × List Scope)
  | none => .ok ([], [Scope.empty])
  | some q => do
    let s ← q.eval checks tables
    .ok (s.header, s.scopes)

end

theorem Query.evalAll_eq_mapM (checks : Checks) (tables : Tables) (queries : List Query) :
    Query.evalAll checks tables queries = queries.mapM (Query.eval checks tables) := by
  induction queries with
  | nil => rfl
  | cons q rest ih =>
    rw [Query.evalAll, ih, List.mapM_cons]
    rfl

end StreamQuery
