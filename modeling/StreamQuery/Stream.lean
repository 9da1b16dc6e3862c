import StreamQuery.Error

/-!
# Streams

A stream is a header and a list of records. Every result of a query is a stream, and so
is a table with its rows. A stream fits its header if every record has one value for
each column and the column's type accepts it.
-/

namespace StreamQuery

/-- Refuses a value that a column's type does not accept. -/
def Column.check (c : Column) (v : Value) : Except Error Unit :=
  if c.datatype.accepts v then .ok () else .error (.typeMismatch (.column c) (.value v))

/-- Refuses the first value that its column does not accept. -/
def checkValues : List Column → Record → Except Error Unit
  | c :: header, v :: record => do
    c.check v
    checkValues header record
  | _, _ => .ok ()

/-- Refuses a record that has another width than the header or a value that does not fit
    its column. -/
def checkRecord (header : List Column) (record : Record) : Except Error Unit :=
  if record.length = header.length then checkValues header record
  else .error (.arityMismatch header.length record.length)

/-- Refuses the columns of a table if one has no name or the name of an earlier one. -/
def checkColumns (columns : List Column) : Except Error Unit :=
  go [] columns
where
  /-- Checks the columns behind those with the names seen. -/
  go (seen : List String) : List Column → Except Error Unit
    | [] => .ok ()
    | c :: rest =>
      if c.name = "" then .error (.invalidValue .emptyColumnName)
      else if c.name ∈ seen then .error (.invalidValue (.duplicateColumn c.name))
      else go (seen ++ [c.name]) rest

/-- A header and records under it. -/
structure Stream where
  header : List Column
  records : List Record
  deriving DecidableEq

namespace Stream

def empty : Stream := ⟨[], []⟩

def ofHeader (header : List Column) : Stream := ⟨header, []⟩

/-- Refuses a stream at its first record that does not fit the header. -/
def check (s : Stream) : Except Error Unit := s.records.forM (checkRecord s.header)

/-- The records under a header, if they fit it. -/
def ofRecords (header : List Column) (records : List Record) : Except Error Stream := do
  Stream.check ⟨header, records⟩
  .ok ⟨header, records⟩

def size (s : Stream) : Nat := s.records.length

end Stream

end StreamQuery
