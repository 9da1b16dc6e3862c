import StreamQuery.Error

/-!
# Scopes

The names that an expression can read, with their values. Bindings are listed from the
innermost outwards: the first binding of a name is the one that counts.
-/

namespace StreamQuery

/-- Names with their values; the first entry of a name counts. -/
structure Scope where
  bindings : List (String × Value)
  deriving DecidableEq

namespace Scope

def empty : Scope := ⟨[]⟩

/-- The names of a header, bound to the values of a record at the same places. Of columns
    that share a name the first counts. -/
def ofRecord (header : List Column) (record : Record) : Scope :=
  ⟨(header.map Column.name).zip record⟩

def nulls (header : List Column) : Scope := ⟨header.map fun c => (c.name, .null)⟩

/-- The scope where a name is bound to a value, whatever it was bound to. -/
def bind (s : Scope) (name : String) (value : Value) : Scope :=
  ⟨(name, value) :: s.bindings⟩

def get? (s : Scope) (name : String) : Option Value := s.bindings.lookup name

/-- The value of a name. A name that is not bound cannot be read. -/
def lookup (s : Scope) (name : String) : Except Error Value :=
  match s.get? name with
  | some value => .ok value
  | none => .error (.unresolvedVariable name)

/-- The bound names, each once. -/
def names (s : Scope) : List String := (s.bindings.map Prod.fst).eraseDups

def size (s : Scope) : Nat := s.names.length

end Scope

end StreamQuery
