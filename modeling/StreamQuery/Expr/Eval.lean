import StreamQuery.Expr
import StreamQuery.Operator.Apply
import StreamQuery.Scope

/-!
# Values of expressions

An expression is evaluated in the scope of one row. The calls of aggregate functions in
it are not folded here: they stand for results that were finished before, one for each
call.
-/

namespace StreamQuery

/-- Calls with their finished results; the first entry of a call counts. -/
abbrev Finished := List (Call × Value)

/-- The place of a condition in a CASE, as messages name it. -/
def caseCondition : String := "CASE condition"

mutual

/-- The value of an expression in a scope, where calls stand for finished results.
    Operands are evaluated from left to right, and the first error is the result. -/
def Expr.evalWith (scope : Scope) (finished : Finished) : Expr → Except Error Value
  | .lit value => .ok value
  | .rename inner _ => inner.evalWith scope finished
  | .var name => scope.lookup name
  | .not operand => do negate (← operand.evalWith scope finished)
  | .binary op left right => do
    let a ← left.evalWith scope finished
    let b ← right.evalWith scope finished
    op.apply a b
  | .case arms => arms.evalWith scope finished
  | .call kind argument =>
    match finished.lookup (kind, argument) with
    | some value => .ok value
    | none => .error (.invalidValue (.misplacedAggregate kind))

/-- The result of the first arm whose condition is true. Arms behind it are not
    evaluated; without such an arm and without ELSE the result is NULL. -/
def Arms.evalWith (scope : Scope) (finished : Finished) : Arms → Except Error Value
  | .done => .ok .null
  | .otherwise result => result.evalWith scope finished
  | .when condition result rest => do
    let v ← condition.evalWith scope finished
    if ← isSatisfied caseCondition v then result.evalWith scope finished
    else rest.evalWith scope finished

end

namespace Expr

/-- The value of an expression where no call is allowed. -/
def eval (scope : Scope) (e : Expr) : Except Error Value := e.evalWith scope []

end Expr

end StreamQuery
