import StreamQuery.Expr
import StreamQuery.Parser

/-!
# Reading expressions

An expression is a chain of operands with operators between them. A chain at a minimum
precedence takes every operator that binds at least so tightly; the operand behind an
operator is a chain that binds tighter, so operators of one precedence group to the left.
Each chain is one nesting level.
-/

namespace StreamQuery.Parser

def operator? : Token → Option BinaryOp
  | .asterisk => some (.arith .mul)
  | .slash => some (.arith .div)
  | .plus => some (.arith .add)
  | .minus => some (.arith .sub)
  | .equal => some (.compare .eq)
  | .notEqual => some (.compare .ne)
  | .lessThan => some (.compare .lt)
  | .lessOrEqual => some (.compare .le)
  | .greaterThan => some (.compare .gt)
  | .greaterOrEqual => some (.compare .ge)
  | _ => none

/-- The operator of a token, if it binds at least so tightly. -/
def operatorFrom? (min : Nat) (t : Token) : Option BinaryOp :=
  (operator? t).filter fun op => decide (min ≤ op.precedence)

def numberOf (digits : String) : Nat :=
  digits.toList.foldl (fun n c => 10 * n + (c.toNat - '0'.toNat)) 0

/-- The literal of some digits, whose number has to fit into 64 bits. -/
def integer (position : Position) (digits : String) : Parser Expr :=
  if inRange (numberOf digits) then return .lit (.int (numberOf digits))
  else fail (.unexpected position .integerWithinRange (some (.number digits)))

/-- The arms of a CASE up to END, with the parser for expressions in them. -/
def caseArms (inner : Parser Expr) : Parser Arms := do
  let branches ← many (exactly (.keyword .WHEN)) fun _ => do
    let condition ← inner
    expect (.keyword .THEN)
    let result ← inner
    return (condition, result)
  let final ← if ← accept (.keyword .ELSE) then some <$> inner else pure none
  expect (.keyword .END)
  return .ofBranches branches final

/-- The argument of a call and the parenthesis behind it. Only aggregate functions can be
    called; another name is an error at its own place. -/
def callArgument (inner : Parser Expr) (position : Position) (name : String) :
    Parser Expr := do
  match Aggregate.ofCall? name with
  | none => fail (.unknownFunction position name)
  | some kind =>
    let argument ← inner
    expect .closeParen
    return .call kind argument

/-- An operand without NOT: a literal, a column, a call, a CASE or an expression in
    parentheses. -/
def atom (inner : Parser Expr) : Parser Expr := do
  let l ← next .expression
  match l.token with
  | .number digits => integer l.position digits
  | .keyword .TRUE => return .lit (.bool true)
  | .keyword .FALSE => return .lit (.bool false)
  | .keyword .NULL => return .lit .null
  | .keyword .CASE => .case <$> caseArms inner
  | .ident name =>
    if ← accept .openParen then callArgument inner l.position name else return .var name
  | .openParen => do
    let e ← inner
    expect .closeParen
    return e
  | t => fail (.unexpected l.position .expression (some t))

/-- Gives a value to NOT alone, if it binds at least so tightly. -/
def negationFrom? (min : Nat) (t : Token) : Option Unit :=
  (exactly (.keyword .NOT) t).filter fun _ => decide (min ≤ negationPrecedence)

/-- The first operand of a chain: NOT with an operand that binds as tightly as NOT does, or an
    atom. -/
def operand (chainAt : Nat → Parser Expr) (min : Nat) : Parser Expr := do
  match ← accept? (negationFrom? min) with
  | some () => .not <$> chainAt negationPrecedence
  | none => atom (chainAt 0)

/-- A chain of operands at a minimum precedence. The operators apply from left to
    right. -/
def chain (chainAt : Nat → Parser Expr) (min : Nat) : Parser Expr := do
  let first ← operand chainAt min
  let others ← many (operatorFrom? min) fun op =>
    (op, ·) <$> chainAt (op.precedence + 1)
  return others.foldl (fun left (op, right) => .binary op left right) first

/-- An expression whose operators bind at least as tightly as the given precedence. -/
def expressionAt : Nat → Parser Expr := recursive chain

def expression : Parser Expr := expressionAt 0

end StreamQuery.Parser
