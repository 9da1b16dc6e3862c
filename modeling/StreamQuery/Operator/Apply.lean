import StreamQuery.Error

/-!
# Operators on types and on values

Each operator has a rule on types, which is checked before any row is read, and a rule
on values. NULL as an operand makes the result NULL. Arithmetic is exact: a result
outside 64 bits and a division by zero are errors, and division drops the fraction.
-/

namespace StreamQuery

namespace ArithOp

/-- The exact result on integers. Nothing can be divided by zero. -/
def exact (op : ArithOp) (a b : Int) : Except Error Int :=
  match op with
  | add => .ok (a + b)
  | sub => .ok (a - b)
  | mul => .ok (a * b)
  | div => if b = 0 then .error (.invalidValue .divisionByZero) else .ok (a.tdiv b)

/-- The result on integers, if it has 64 bits. -/
def onInts (op : ArithOp) (a b : Int) : Except Error Int := do
  let n ← op.exact a b
  if inRange n then .ok n else .error (.invalidValue (.overflow op a b))

/-- The result on values: integers and NULL can be operands. -/
def apply (op : ArithOp) : Value → Value → Except Error Value
  | .int a, .int b => .int <$> op.onInts a b
  | .int _, .null => .ok .null
  | .null, .int _ => .ok .null
  | .null, .null => .ok .null
  | a, b => .error (.typeMismatch (.operands (.arith op)) (.values a b))

/-- The result's type: both operands have to be compatible with INT. -/
def type (op : ArithOp) (s t : DataType) : Except Error DataType :=
  if s.compatible .int && t.compatible .int then .ok .int
  else .error (.typeMismatch (.operands (.arith op)) (.types s t))

end ArithOp

namespace CompareOp

/-- The result on values: a comparison with NULL is NULL, and values of two kinds
    cannot be compared. -/
def apply (op : CompareOp) : Value → Value → Except Error Value
  | .null, _ => .ok .null
  | _, .null => .ok .null
  | .bool a, .bool b => .ok (.bool (op.holds (compare a b)))
  | .int a, .int b => .ok (.bool (op.holds (compare a b)))
  | a, b => .error (.typeMismatch (.operands (.compare op)) (.values a b))

/-- The result's type: the operands' types have to be compatible. -/
def type (op : CompareOp) (s t : DataType) : Except Error DataType :=
  if s.compatible t then .ok .bool
  else .error (.typeMismatch (.operands (.compare op)) (.types s t))

end CompareOp

namespace BinaryOp

def apply : BinaryOp → Value → Value → Except Error Value
  | arith op => op.apply
  | compare op => op.apply

/-- The type of an operator's result on operands of the given types. -/
def type : BinaryOp → DataType → DataType → Except Error DataType
  | arith op => op.type
  | compare op => op.type

/-- The type of an operator's result, whatever its operands. -/
def resultType : BinaryOp → DataType
  | arith _ => .int
  | compare _ => .bool

end BinaryOp

/-- The negation of a value; that of NULL is NULL. -/
def negate : Value → Except Error Value
  | .bool truth => .ok (.bool !truth)
  | .null => .ok .null
  | v => .error (.typeMismatch .negand (.value v))

def negationType (t : DataType) : Except Error DataType :=
  if t.compatible .bool then .ok .bool else .error (.typeMismatch .negand (.type t))

/-- Whether a condition in the given place lets a row through. Only true does; false and
    NULL do not, and an integer is no condition. -/
def isSatisfied (place : String) : Value → Except Error Bool
  | .bool truth => .ok truth
  | .null => .ok false
  | v => .error (.typeMismatch (.condition place) (.value v))

end StreamQuery
