/-!
# Operators

The arithmetic and comparison operators between two operands. Negation of a condition is
the only operator with one operand.
-/

namespace StreamQuery

/-- An operator from two integers to an integer. -/
inductive ArithOp where
  | add
  | sub
  | mul
  | div
  deriving DecidableEq

/-- An operator from two values of one kind to a truth value. -/
inductive CompareOp where
  | eq
  | ne
  | lt
  | le
  | gt
  | ge
  deriving DecidableEq

inductive BinaryOp where
  | arith (op : ArithOp)
  | compare (op : CompareOp)
  deriving DecidableEq

namespace ArithOp

def symbol : ArithOp → String
  | add => "+"
  | sub => "-"
  | mul => "*"
  | div => "/"

/-- An arithmetic operator as messages name it. -/
def name : ArithOp → String
  | add => "addition"
  | sub => "subtraction"
  | mul => "multiplication"
  | div => "division"

end ArithOp

namespace CompareOp

def symbol : CompareOp → String
  | eq => "="
  | ne => "<>"
  | lt => "<"
  | le => "<="
  | gt => ">"
  | ge => ">="

def name : CompareOp → String
  | eq => "equality"
  | ne => "inequality"
  | lt => "less than"
  | le => "less than or equal"
  | gt => "greater than"
  | ge => "greater than or equal"

/-- Whether a comparison holds between operands that are so ordered. -/
def holds : CompareOp → Ordering → Bool
  | eq, o => o.isEq
  | ne, o => o.isNe
  | lt, o => o.isLT
  | le, o => o.isLE
  | gt, o => o.isGT
  | ge, o => o.isGE

end CompareOp

namespace BinaryOp

def symbol : BinaryOp → String
  | arith op => op.symbol
  | compare op => op.symbol

def name : BinaryOp → String
  | arith op => op.name
  | compare op => op.name

/-- What an operator asks of its operands, as messages say it. -/
def operandDemand : BinaryOp → String
  | arith _ => "INT"
  | compare _ => "matching"

/-- How tightly an operator binds between its operands. -/
def precedence : BinaryOp → Nat
  | compare _ => 1
  | arith .add => 2
  | arith .sub => 2
  | arith .mul => 3
  | arith .div => 3

def all : List BinaryOp :=
  [arith .add, arith .sub, arith .mul, arith .div, compare .eq, compare .ne, compare .lt,
    compare .le, compare .gt, compare .ge]

end BinaryOp

def negationSymbol : String := "NOT"

def negationName : String := "logical NOT"

def negationPrecedence : Nat := 4

/-- Comparisons bind least, then sums and differences, then products and quotients, and negation
    binds tightest. -/
theorem BinaryOp.precedence_order (comparison : CompareOp) :
    (compare comparison).precedence < (arith .add).precedence ∧
      (arith .add).precedence = (arith .sub).precedence ∧
      (arith .sub).precedence < (arith .mul).precedence ∧
      (arith .mul).precedence = (arith .div).precedence ∧ (arith .div).precedence < negationPrecedence :=
  ⟨Nat.lt_add_one _, rfl, Nat.lt_add_one _, rfl, Nat.lt_add_one _⟩

end StreamQuery
