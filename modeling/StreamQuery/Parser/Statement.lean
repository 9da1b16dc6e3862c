import StreamQuery.Parser.Expression
import StreamQuery.Query

/-!
# Reading statements

A query is one or more selects with UNION ALL between them. The clauses of a select
come in one order, and each but the first may be absent. An item of FROM is a table or a
query in parentheses, which is one nesting level. A statement ends with a semicolon, and
nothing follows it.
-/

namespace StreamQuery

namespace Parser

/-- A clause that its keyword announces, if the keyword is there. -/
def clause {α : Type} (keyword : Keyword) (p : Parser α) : Parser (Option α) := do
  if ← accept (.keyword keyword) then some <$> p else return none

/-- A projected expression, under a new name if AS follows. -/
def projected : Parser Expr := do
  let e ← expression
  if ← accept (.keyword .AS) then .rename e <$> identifier else return e

/-- A sort key with its direction, which is ascending where none is given. -/
def sortKey : Parser (Expr × Direction) := do
  let e ← expression
  let direction ← accept? fun
    | .keyword .ASC => some Direction.ascending
    | .keyword .ASCENDING => some Direction.ascending
    | .keyword .DESC => some Direction.descending
    | .keyword .DESCENDING => some Direction.descending
    | _ => none
  return (e, direction.getD .ascending)

/-- An item of FROM, with the parser for a query in parentheses. -/
def fromItem (inner : Parser Query) : Parser Query := do
  if ← accept .openParen then
    let q ← inner
    expect .closeParen
    return q
  else
    .table <$> require .fromItem fun
      | .ident name => some name
      | _ => none

def select (inner : Parser Query) : Parser Query := do
  expect (.keyword .SELECT)
  let projection ← commaSeparated projected
  let source ← clause .FROM (Query.product <$> commaSeparated (fromItem inner))
  let filter ← clause .WHERE expression
  let groupBy ← clause .GROUP (do expect (.keyword .BY); commaSeparated expression)
  let orderBy ← clause .ORDER (do expect (.keyword .BY); commaSeparated sortKey)
  return .select ⟨projection, filter, groupBy, orderBy⟩ source

/-- A query, with the parser for queries in parentheses. -/
def queryOver (inner : Parser Query) : Parser Query := do
  let first ← select inner
  let others ← many (exactly (.keyword .UNION)) fun _ => do
    expect (.keyword .ALL)
    select inner
  return .union (first :: others)

/-- A query in parentheses, read behind the opening one. -/
def nestedQuery : Parser Query := recursive (fun self _ => queryOver (self ())) ()

def query : Parser Query := queryOver nestedQuery

def column : Parser Column := do
  let name ← identifier
  let datatype ← require .columnType fun
    | .keyword .INT => some DataType.int
    | .keyword .BOOL => some DataType.bool
    | _ => none
  return ⟨name, datatype⟩

/-- The declaration of a table. It may have no columns. -/
def createTable : Parser Statement := do
  expect (.keyword .CREATE)
  expect (.keyword .TABLE)
  let name ← identifier
  expect .openParen
  if ← accept .closeParen then return .createTable name []
  else
    let columns ← commaSeparated column
    expect .closeParen
    return .createTable name columns

/-- A statement without its semicolon. The first token tells its kind. -/
def statement : Parser Statement := do
  match ← peek with
  | some (.keyword .CREATE) => createTable
  | some (.keyword .SELECT) => .query <$> query
  | _ => unexpected .statement

def endOfInput : Parser Unit := do
  match ← peek with
  | some _ => unexpected .endOfInput
  | none => return ()

def wholeStatement : Parser Statement := do
  let s ← statement
  expect .semicolon
  endOfInput
  return s

end Parser

/-- The statement that a text is. -/
def Statement.parse (text : String) : Except Error Statement :=
  (Parser.wholeStatement.run (.ofText text)).answer

/-- The statement that a text begins with, without its semicolon, and the input behind
    it. -/
def Statement.parseFront (text : String) : Except Error Statement × Input :=
  let outcome := Parser.statement.run (.ofText text)
  (outcome.answer, outcome.rest)

end StreamQuery
