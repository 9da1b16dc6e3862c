/-!
# Values and their types

A value is a truth value, a 64-bit signed integer or NULL. Values of all kinds are
totally ordered: truth values come before integers and integers before NULL, false
comes before true, and records are compared position by position.
-/

namespace StreamQuery

/-- A static type. What has the type `unknown` may turn out to hold a value of any kind. -/
inductive DataType where
  | bool
  | int
  | unknown
  deriving DecidableEq

/-- A value. Arithmetic and literals keep integers within 64 bits. -/
inductive Value where
  | bool (truth : Bool)
  | int (number : Int)
  | null
  deriving DecidableEq

abbrev Record := List Value

def minInt : Int := -9223372036854775808

def maxInt : Int := 9223372036854775807

/-- Whether an integer has a 64-bit signed representation. -/
def inRange (n : Int) : Bool := decide (minInt ≤ n) && decide (n ≤ maxInt)

theorem inRange_iff {n : Int} : inRange n = true ↔ minInt ≤ n ∧ n ≤ maxInt := by
  rw [inRange, Bool.and_eq_true, decide_eq_true_iff, decide_eq_true_iff]

namespace DataType

def display : DataType → String
  | bool => "BOOL"
  | int => "INT"
  | unknown => "UNKNOWN"

/-- Two types are compatible when something may have both. -/
def compatible (s t : DataType) : Bool :=
  s == unknown || t == unknown || s == t

end DataType

namespace Value

def display : Value → String
  | bool truth => if truth then "true" else "false"
  | int number => toString number
  | null => "NULL"

/-- The kind of a value as messages name it. -/
def kind : Value → String
  | bool _ => "bool"
  | int _ => "int"
  | null => "null"

/-- The type that a value shows by itself. NULL shows none. -/
def type : Value → DataType
  | bool _ => .bool
  | int _ => .int
  | null => .unknown

def isTrue : Value → Bool
  | bool truth => truth
  | _ => false

/-- The place of a value's kind among the kinds. -/
def rank : Value → Nat
  | bool _ => 0
  | int _ => 1
  | null => 2

/-- Truth values by size, integers by size, and kinds by rank. -/
protected def compare : Value → Value → Ordering
  | bool a, bool b => Ord.compare a b
  | int a, int b => Ord.compare a b
  | a, b => Ord.compare a.rank b.rank

instance : Ord Value := ⟨Value.compare⟩

end Value

/-- A type accepts NULL and the values that show it; `unknown` accepts every value. -/
def DataType.accepts (t : DataType) (v : Value) : Bool := t.compatible v.type

/-- The values in increasing order; equal ones keep their order. -/
def sortValues (vs : List Value) : List Value :=
  vs.mergeSort fun a b => (compare a b).isLE

def sortRecords (rs : List Record) : List Record :=
  rs.mergeSort fun a b => (compare a b).isLE

end StreamQuery
