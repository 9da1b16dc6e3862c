import StreamQuery.Catalog
import StreamQuery.Query.Eval

/-!
# Environments

What a statement reads and changes outside itself: an environment finds tables and
registers new ones, as far as it can. Only the declaration of a table can change it; what
is left of it when that fails is the environment's own affair.
-/

namespace StreamQuery

/-- Something that finds tables by name and registers new ones. What an environment does
    not provide is unsupported. -/
class Environment (ε : Type) where
  /-- The table with a name. -/
  lookup : ε → Tables := fun _ name => .error (.unsupported (.lookup name))
  /-- Whether a new table can be had, and the environment afterwards. -/
  register : ε → String → List Column → Except Error Unit × ε := fun e name _ =>
    (.error (.unsupported (.registration name)), e)

/-- The environment that has no tables and can register none. -/
structure NoTables where
  deriving DecidableEq

instance : Environment NoTables where

/-- The catalog with a new table; one that refuses the table stays as it is. -/
def Catalog.tryRegister (c : Catalog) (name : String) (columns : List Column) :
    Except Error Unit × Catalog :=
  match c.register name columns with
  | .ok changed => (.ok (), changed)
  | .error e => (.error e, c)

instance : Environment Catalog where
  lookup := Catalog.lookup
  register := Catalog.tryRegister

/-- Tables that a host provides as they are. It has no others and can register none. -/
structure HostTables where
  tables : List (String × Stream)
  deriving DecidableEq

def HostTables.lookup (h : HostTables) (name : String) : Except Error Stream :=
  match h.tables.lookup name with
  | some table => .ok table
  | none => .error (.unsupported (.lookup name))

instance : Environment HostTables where
  lookup := HostTables.lookup

/-- The result of a statement and the environment behind it. The declaration of a table
    results in the empty stream. -/
def Statement.execute {ε : Type} [Environment ε] (checks : Checks) (environment : ε) :
    Statement → Except Error Stream × ε
  | .query q => (q.eval checks (Environment.lookup environment), environment)
  | .createTable name columns =>
    match checkColumns columns with
    | .error e => (.error e, environment)
    | .ok () =>
      let (answer, changed) := Environment.register environment name columns
      (answer.map fun _ => .empty, changed)

end StreamQuery
