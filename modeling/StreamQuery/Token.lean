import StreamQuery.Text.LowerCase
import StreamQuery.Text.Position

/-!
# Tokens

The lexical units of a statement: keywords, numbers, identifiers and symbols. A word
is a keyword in any letter case.
-/

namespace StreamQuery

/-- A reserved word, named by its spelling in capitals. -/
inductive Keyword where
  | ALL
  | AS
  | ASC
  | ASCENDING
  | BOOL
  | BY
  | CASE
  | CREATE
  | DESC
  | DESCENDING
  | ELSE
  | END
  | FALSE
  | FROM
  | GROUP
  | INT
  | NOT
  | NULL
  | ORDER
  | SELECT
  | TABLE
  | THEN
  | TRUE
  | UNION
  | WHEN
  | WHERE
  deriving DecidableEq

/-- A lexical unit. An identifier is a word or a reference to a column of a joined
    stream, such as `$0.x`. -/
inductive Token where
  | number (digits : String)
  | ident (name : String)
  | keyword (keyword : Keyword)
  | asterisk
  | slash
  | plus
  | minus
  | equal
  | notEqual
  | lessThan
  | lessOrEqual
  | greaterThan
  | greaterOrEqual
  | openParen
  | closeParen
  | comma
  | semicolon
  deriving DecidableEq

/-- A token and the place where it begins. -/
structure Lexeme where
  position : Position
  token : Token
  deriving DecidableEq

namespace Keyword

def spelling : Keyword → String
  | ALL => "ALL"
  | AS => "AS"
  | ASC => "ASC"
  | ASCENDING => "ASCENDING"
  | BOOL => "BOOL"
  | BY => "BY"
  | CASE => "CASE"
  | CREATE => "CREATE"
  | DESC => "DESC"
  | DESCENDING => "DESCENDING"
  | ELSE => "ELSE"
  | END => "END"
  | FALSE => "FALSE"
  | FROM => "FROM"
  | GROUP => "GROUP"
  | INT => "INT"
  | NOT => "NOT"
  | NULL => "NULL"
  | ORDER => "ORDER"
  | SELECT => "SELECT"
  | TABLE => "TABLE"
  | THEN => "THEN"
  | TRUE => "TRUE"
  | UNION => "UNION"
  | WHEN => "WHEN"
  | WHERE => "WHERE"

/-- The keyword that a word spells, by the lower case of the word. -/
def ofWord? (word : String) : Option Keyword :=
  match Text.lowerCase word with
  | "all" => some ALL
  | "as" => some AS
  | "asc" => some ASC
  | "ascending" => some ASCENDING
  | "bool" => some BOOL
  | "by" => some BY
  | "case" => some CASE
  | "create" => some CREATE
  | "desc" => some DESC
  | "descending" => some DESCENDING
  | "else" => some ELSE
  | "end" => some END
  | "false" => some FALSE
  | "from" => some FROM
  | "group" => some GROUP
  | "int" => some INT
  | "not" => some NOT
  | "null" => some NULL
  | "order" => some ORDER
  | "select" => some SELECT
  | "table" => some TABLE
  | "then" => some THEN
  | "true" => some TRUE
  | "union" => some UNION
  | "when" => some WHEN
  | "where" => some WHERE
  | _ => none

end Keyword

namespace Token

/-- A token as messages show it: keywords in capitals, all else as it is written. -/
def display : Token → String
  | number digits => digits
  | ident name => name
  | keyword k => k.spelling
  | asterisk => "*"
  | slash => "/"
  | plus => "+"
  | minus => "-"
  | equal => "="
  | notEqual => "<>"
  | lessThan => "<"
  | lessOrEqual => "<="
  | greaterThan => ">"
  | greaterOrEqual => ">="
  | openParen => "("
  | closeParen => ")"
  | comma => ","
  | semicolon => ";"

/-- The token of a word: a keyword if it spells one, otherwise an identifier. -/
def ofWord (word : String) : Token :=
  match Keyword.ofWord? word with
  | some k => keyword k
  | none => ident word

end Token

end StreamQuery
