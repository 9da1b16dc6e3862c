import StreamQuery.Aggregate
import StreamQuery.Column
import StreamQuery.Operator
import StreamQuery.Text.Quoted
import StreamQuery.Token

/-!
# Errors

Every way in which a statement fails, as a cause. The wording of a cause is given by
`Error.message` alone. Errors fall into two families: those of the text of a statement,
which have a position, and those of its evaluation, which have none.
-/

namespace StreamQuery

/-- What a statement's text was expected to continue with. -/
inductive Expectation where
  | statement
  | endOfInput
  | identifier
  | columnType
  | fromItem
  | expression
  | nestingWithinLimit
  | integerWithinRange
  | token (token : Token)
  | streamIndex
  | dotAfterIndex
  | columnName
  deriving DecidableEq

/-- What a value or a type was required to be. -/
inductive Requirement where
  /-- Fit an operator between two operands. -/
  | operands (op : BinaryOp)
  /-- Be something that can be negated. -/
  | negand
  /-- Be a condition in the given place. -/
  | condition (place : String)
  /-- Agree with the type of the branches of a CASE so far. -/
  | branch (type : DataType)
  /-- Be the type of an aggregate function's argument. -/
  | argumentType (function : Aggregate)
  /-- Be a value that an aggregate function folds. -/
  | argument (function : Aggregate)
  /-- Fit a column. -/
  | column (column : Column)
  deriving DecidableEq

/-- What was found instead: one or two types, or one or two values. -/
inductive Finding where
  | type (type : DataType)
  | types (left right : DataType)
  | value (value : Value)
  | values (left right : Value)
  deriving DecidableEq

/-- Why a value cannot be formed or used. -/
inductive Invalid where
  | overflow (op : ArithOp) (left right : Int)
  | divisionByZero
  | sumOverflow
  | misplacedAggregate (kind : AggregateKind)
  | unknownAggregate (kind : AggregateKind)
  | emptyColumnName
  | duplicateColumn (name : String)
  deriving DecidableEq

/-- What an environment may be unable to do with a table. -/
inductive Capability where
  | lookup (table : String)
  | registration (table : String)
  deriving DecidableEq

/-- Why a statement fails. -/
inductive Error where
  /-- No lexeme begins or continues with the character found. -/
  | foreignCharacter (position : Position) (found : Char)
  /-- The text continues with the token found, or ends where there is none. -/
  | unexpected (position : Position) (expected : Expectation) (found : Option Token)
  | unknownFunction (position : Position) (name : String)
  | tableNotFound (name : String)
  | duplicateTable (name : String)
  | unsupported (capability : Capability)
  | unresolvedVariable (name : String)
  | typeMismatch (required : Requirement) (found : Finding)
  | arityMismatch (expected found : Nat)
  | invalidValue (cause : Invalid)
  deriving DecidableEq

inductive Error.Family where
  | text
  | evaluation
  deriving DecidableEq

def Expectation.message : Expectation → String
  | statement => "statement"
  | endOfInput => "end of input"
  | identifier => "identifier"
  | columnType => "column type INT or BOOL"
  | fromItem => "subquery or table name"
  | expression => "expression"
  | nestingWithinLimit => "expression nesting within limit"
  | integerWithinRange => "integer within 64-bit range"
  | token t => t.display
  | streamIndex => "stream index after $"
  | dotAfterIndex => "'.' after stream index"
  | columnName => "column name"

def Requirement.message : Requirement → String
  | operands op => op.operandDemand ++ " operands for " ++ op.name
  | negand => DataType.display .bool ++ " operands for " ++ negationName
  | condition place => DataType.display .bool ++ " " ++ place
  | branch type => type.display ++ " CASE branch"
  | argumentType f => f.argumentType.display ++ " argument to " ++ f.name
  | argument f => f.initial.kind ++ " argument to " ++ f.name
  | column c => c.datatype.display ++ " for column " ++ c.name

/-- A finding in words: types by their declaration, values by their kind. -/
def Finding.message : Finding → String
  | type t => t.display
  | types s t => s.display ++ " and " ++ t.display
  | value v => v.kind
  | values v w => v.kind ++ " and " ++ w.kind

def Invalid.message : Invalid → String
  | overflow op a b =>
    "integer overflow in " ++ toString a ++ " " ++ op.symbol ++ " " ++ toString b
  | divisionByZero => "division by zero"
  | sumOverflow => "integer overflow in sum"
  | misplacedAggregate k => "aggregate function " ++ k.name ++ " is not allowed here"
  | unknownAggregate k => "unknown aggregate function " ++ k.name
  | emptyColumnName => "Column name cannot be empty"
  | duplicateColumn name => "Duplicate column name: " ++ name

def Capability.message : Capability → String
  | lookup table => "table lookup of " ++ table
  | registration table => "table registration of " ++ table

namespace Error

def foundMessage : Option Token → String
  | some t => t.display
  | none => "end of input"

def message : Error → String
  | foreignCharacter p c =>
    "Lex error at " ++ p.display ++ ": unexpected character " ++ Text.quoteChar c
  | unexpected p expected found =>
    "Parse error at " ++ p.display ++ ": expected " ++ expected.message ++ ", found " ++
      foundMessage found
  | unknownFunction p name =>
    "Parse error at " ++ p.display ++ ": Unknown function " ++ name
  | tableNotFound name => "Table not found: " ++ name
  | duplicateTable name => "Table already exists: " ++ name
  | unsupported capability => "Environment does not support " ++ capability.message
  | unresolvedVariable name => "Unresolved variable: " ++ name
  | typeMismatch required found =>
    "Type mismatch: expected " ++ required.message ++ ", found " ++ found.message
  | arityMismatch expected found =>
    "Arity mismatch: expected " ++ toString expected ++ " values, found " ++ toString found
  | invalidValue cause => "Invalid value: " ++ cause.message

def position? : Error → Option Position
  | foreignCharacter p _ => some p
  | unexpected p _ _ => some p
  | unknownFunction p _ => some p
  | _ => none

/-- The family of an error: those with a position concern the text. -/
def family (e : Error) : Family := if e.position?.isSome then .text else .evaluation

end Error

end StreamQuery
