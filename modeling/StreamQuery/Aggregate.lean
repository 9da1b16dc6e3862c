import StreamQuery.Text.LowerCase
import StreamQuery.Value

/-!
# Aggregate functions

A call in a statement names a kind of aggregate function, in any letter case. The functions are a
table of their own, where each is found by its name: a function folds the values that a group has
in one column to a single value.
-/

namespace StreamQuery

/-- What a call of an aggregate function can be a call of. -/
inductive AggregateKind where
  | boolOr
  | sum
  deriving DecidableEq

/-- The name of a kind in messages and headers, and by which its function is found. -/
def AggregateKind.name : AggregateKind → String
  | boolOr => "bool_or"
  | sum => "sum"

/-- An aggregate function: whether any value is true, or the sum of the integers. -/
inductive Aggregate where
  | boolOr
  | sum
  deriving DecidableEq

namespace Aggregate

/-- The kind that a call names, by the lower case of the word. -/
def ofCall? (word : String) : Option AggregateKind :=
  match Text.lowerCase word with
  | "bool_or" => some .boolOr
  | "sum" => some .sum
  | _ => none

def name : Aggregate → String
  | boolOr => "bool_or"
  | sum => "sum"

def argumentType : Aggregate → DataType
  | boolOr => .bool
  | sum => .int

def resultType : Aggregate → DataType
  | boolOr => .bool
  | sum => .int

/-- A function's state before any value was folded; also its result for no values. -/
def initial : Aggregate → Value
  | boolOr => .bool false
  | sum => .int 0

/-- The functions in the order in which they are looked up. -/
def all : List Aggregate := [boolOr, sum]

/-- The first function with a name, where the capitals A to Z count as small letters. -/
def named? (name : String) : Option Aggregate :=
  all.find? fun f => Text.lowerAscii f.name == Text.lowerAscii name

def kind : Aggregate → AggregateKind
  | boolOr => .boolOr
  | sum => .sum

instance : Coe Aggregate AggregateKind := ⟨kind⟩

end Aggregate

end StreamQuery
