import StreamQuery.Stream

/-!
# Catalogs

A catalog holds tables in memory, in the order of their names. A table's columns are
fixed when it is registered; rows are only ever added, and a batch of rows is added as a
whole or not at all.
-/

namespace StreamQuery

/-- Named tables in increasing order of their names. -/
structure Catalog where
  tables : List (String × Stream)
  deriving DecidableEq

namespace Catalog

def empty : Catalog := ⟨[]⟩

def get? (c : Catalog) (name : String) : Option Stream := c.tables.lookup name

/-- The table with a name, which has to be registered. -/
def lookup (c : Catalog) (name : String) : Except Error Stream :=
  match c.get? name with
  | some table => .ok table
  | none => .error (.tableNotFound name)

/-- Puts a table before the first one whose name is greater. -/
def place (name : String) (table : Stream) :
    List (String × Stream) → List (String × Stream)
  | [] => [(name, table)]
  | entry :: rest =>
    if (compare name entry.1).isLT then (name, table) :: entry :: rest
    else entry :: place name table rest

/-- A new table without rows. Its name has to be free and its columns have to have
    different names. -/
def register (c : Catalog) (name : String) (columns : List Column) :
    Except Error Catalog :=
  match c.get? name with
  | some _ => .error (.duplicateTable name)
  | none => do
    checkColumns columns
    .ok ⟨place name (.ofHeader columns) c.tables⟩

/-- The entry of a table with rows added, if the entry has that name. -/
def extend (name : String) (records : List Record) (entry : String × Stream) :
    String × Stream :=
  if entry.1 = name then (name, ⟨entry.2.header, entry.2.records ++ records⟩) else entry

/-- Adds rows to a table. All of them have to fit its header. -/
def insert (c : Catalog) (name : String) (records : List Record) :
    Except Error Catalog := do
  let table ← c.lookup name
  let added ← Stream.ofRecords table.header records
  .ok ⟨c.tables.map (extend name added.records)⟩

/-- The names of the tables with their numbers of rows, in increasing order. -/
def sizes (c : Catalog) : List (String × Nat) := c.tables.map fun (n, s) => (n, s.size)

end Catalog

end StreamQuery
