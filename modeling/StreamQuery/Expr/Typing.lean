import StreamQuery.Aggregate.Fold
import StreamQuery.Expr.Eval

/-!
# Types of expressions

The type of an expression is found from the header of the rows that it reads. A strict
check refuses operands that an operator cannot take, before any row is read; otherwise
the type of the operator's result is used whatever its operands are, and a mismatch shows
only in a row that reaches the operator.
-/

namespace StreamQuery

/-- The type of the first column with a name; a name without a column may be anything. -/
def columnType (header : List Column) (name : String) : DataType :=
  match header.find? (·.name == name) with
  | some c => c.datatype
  | none => .unknown

/-- The outcome of a type rule. Unless the check is strict, a type takes the place of an
    error. -/
def checkedType (strict : Bool) (outcome : Except Error DataType) (fallback : DataType) :
    Except Error DataType :=
  match outcome with
  | .ok type => .ok type
  | .error e => if strict then .error e else .ok fallback

/-- Refuses a type that is not compatible with the required one, if the check is strict. -/
def requireType (strict : Bool) (required : DataType) (reason : Requirement) (type : DataType) :
    Except Error Unit :=
  if strict && !type.compatible required then .error (.typeMismatch reason (.type type))
  else .ok ()

/-- The type of the branches of a CASE so far and of one more: the first type that is
    known. Strictly, the known ones have to agree. -/
def mergeBranch (strict : Bool) (soFar branch : DataType) : Except Error DataType :=
  if soFar = .unknown then .ok branch
  else do
    requireType strict soFar (.branch soFar) branch
    .ok soFar

mutual

/-- The type of an expression over rows with a header. -/
def Expr.infer (strict : Bool) (header : List Column) : Expr → Except Error DataType
  | .lit value => .ok value.type
  | .rename inner _ => inner.infer strict header
  | .var name => .ok (columnType header name)
  | .not operand => do
    let t ← operand.infer strict header
    checkedType strict (negationType t) .bool
  | .binary op left right => do
    let s ← left.infer strict header
    let t ← right.infer strict header
    checkedType strict (op.type s t) op.resultType
  | .case arms => arms.infer strict header .unknown
  | .call kind argument => do
    let function ← kind.function
    let t ← argument.infer strict header
    requireType strict function.argumentType (.argumentType function) t
    .ok function.resultType

/-- The type of a CASE whose branches so far have a type. -/
def Arms.infer (strict : Bool) (header : List Column) (soFar : DataType) :
    Arms → Except Error DataType
  | .done => .ok soFar
  | .otherwise result => do
    let t ← result.infer strict header
    mergeBranch strict soFar t
  | .when condition result rest => do
    let c ← condition.infer strict header
    requireType strict .bool (.condition caseCondition) c
    let t ← result.infer strict header
    let merged ← mergeBranch strict soFar t
    rest.infer strict header merged

end

namespace Expr

def columnName : Expr → String
  | rename _ name => name
  | lit _ => "literal"
  | var name => name
  | call kind _ => kind.name
  | case _ => "case"
  | not _ => "expression"
  | binary _ _ _ => "expression"

def inferColumn (strict : Bool) (header : List Column) (e : Expr) : Except Error Column :=
  do
    let t ← e.infer strict header
    .ok ⟨e.columnName, t⟩

end Expr

end StreamQuery
