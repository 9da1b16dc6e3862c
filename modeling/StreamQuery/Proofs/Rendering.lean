import StreamQuery.Proofs.Grammar

/-!
# Renderings of statements

Which statements can be written, and how. A well-formed statement has one rendering as tokens,
with parentheses only where an operand binds too loosely for its place; the tokens have many
renderings as text, which differ in the blanks and in the letter case of keywords.
-/

namespace StreamQuery

/-! ## Words -/

/-- A word: a letter of any script, and behind it letters, numerals and underscores. -/
def IsWord : List Char → Prop
  | [] => False
  | first :: rest => Text.isAlphabetic first = true ∧ ∀ c ∈ rest, Text.isWordChar c = true

/-- A name: a word that is no keyword, or a dollar sign with digits, a dot and a word. -/
inductive IsName : String → Prop where
  | word {cs : List Char} (word : IsWord cs) (free : Keyword.ofWord? (String.ofList cs) = none) :
      IsName (String.ofList cs)
  | reference {first : Char} {digits cs : List Char} (index : ∀ c ∈ first :: digits, Text.isDigit c = true)
      (word : IsWord cs) : IsName (String.ofList ('$' :: first :: digits ++ '.' :: cs))

/-- The digits that are read as one number. -/
inductive IsNumber : String → Prop where
  | digits {first : Char} {rest : List Char} (digits : ∀ c ∈ first :: rest, Text.isDigit c = true) :
      IsNumber (String.ofList (first :: rest))

namespace Token

/-- A token that some text has: its name is a name, and its digits are digits. -/
def IsLexical : Token → Prop
  | ident name => IsName name
  | number digits => IsNumber digits
  | _ => True

/-- A token is spelled by its characters, a keyword in any letter case. -/
def SpelledBy : Token → List Char → Prop
  | keyword k, cs => cs.map Char.toLower = k.spelling.toList.map Char.toLower
  | t, cs => cs = t.display.toList

end Token

/-- The texts of some tokens: each token is spelled, with blanks before it and behind it, which
    may be absent only before the first token and behind the last. -/
inductive Renders : List Token → List Char → Prop where
  | nothing {blanks : List Char} (blank : ∀ c ∈ blanks, Text.isBlank c = true) : Renders [] blanks
  | token {t : Token} {ts : List Token} {blanks spelling rest : List Char}
      (blank : ∀ c ∈ blanks, Text.isBlank c = true) (spelled : t.SpelledBy spelling)
      (apart : ∀ c ∈ rest.head?, Text.isBlank c = true) (later : Renders ts rest) :
      Renders (t :: ts) (blanks ++ spelling ++ rest)

/-- Tokens in parentheses, if they need them. -/
def parens (needed : Bool) (ts : List Token) : List Token :=
  if needed then .openParen :: ts ++ [.closeParen] else ts

/-- The levels of what is put in parentheses if it needs them, which take one. -/
def levelsIn (needed : Bool) (levels : Nat) : Nat := if needed then levels + 1 else levels

/-- Tokens of several parts with others between each two. -/
def separated (between : List Token) : List (List Token) → List Token
  | [] => []
  | first :: rest => first ++ rest.flatMap (between ++ ·)

/-! ## Expressions -/

/-- How tightly an expression binds: as its operator does, and as tightly as anything can where
    it has none. -/
def Expr.precedence : Expr → Nat
  | .binary op _ _ => op.precedence
  | .not _ => negationPrecedence
  | _ => negationPrecedence + 1

mutual

/-- An expression that can be written: names are names, integers are within 64 bits and not
    negative, and nothing in it is renamed. -/
def Expr.IsPlain : Expr → Prop
  | .lit (.int number) => 0 ≤ number ∧ number ≤ maxInt
  | .lit _ => True
  | .rename _ _ => False
  | .var name => IsName name
  | .not operand => operand.IsPlain
  | .binary _ left right => left.IsPlain ∧ right.IsPlain
  | .case arms => arms.IsPlain
  | .call _ argument => argument.IsPlain

def Arms.IsPlain : Arms → Prop
  | .done => True
  | .otherwise result => result.IsPlain
  | .when condition result rest => condition.IsPlain ∧ result.IsPlain ∧ rest.IsPlain

end

mutual

/-- The tokens of an expression. An operand is put in parentheses if it binds more loosely than
    its place asks; behind an operator it has to bind tighter than the operator. -/
def Expr.tokens : Expr → List Token
  | .lit (.int number) => [.number (toString number.toNat)]
  | .lit (.bool truth) => [.keyword (if truth then .TRUE else .FALSE)]
  | .lit .null => [.keyword .NULL]
  | .rename inner name => inner.tokens ++ [.keyword .AS, .ident name]
  | .var name => [.ident name]
  | .not operand => .keyword .NOT :: parens (operand.precedence < negationPrecedence) operand.tokens
  | .binary op left right =>
    parens (left.precedence < op.precedence) left.tokens ++
      op.token :: parens (right.precedence < op.precedence + 1) right.tokens
  | .case arms => .keyword .CASE :: arms.tokens
  | .call function argument => .ident function.name :: .openParen :: argument.tokens ++ [.closeParen]

/-- The tokens of the arms of a CASE, and END. -/
def Arms.tokens : Arms → List Token
  | .done => [.keyword .END]
  | .otherwise result => .keyword .ELSE :: result.tokens ++ [.keyword .END]
  | .when condition result rest =>
    .keyword .WHEN :: condition.tokens ++ .keyword .THEN :: result.tokens ++ rest.tokens

end

mutual

/-- The deepest nesting inside the rendering of an expression. -/
def Expr.levels : Expr → Nat
  | .lit _ => 0
  | .rename inner _ => inner.levels
  | .var _ => 0
  | .not operand => levelsIn (operand.precedence < negationPrecedence) operand.levels + 1
  | .binary op left right =>
    max (levelsIn (left.precedence < op.precedence) left.levels)
      (levelsIn (right.precedence < op.precedence + 1) right.levels + 1)
  | .case arms => arms.levels
  | .call _ argument => argument.levels + 1

def Arms.levels : Arms → Nat
  | .done => 0
  | .otherwise result => result.levels + 1
  | .when condition result rest => max (max (condition.levels + 1) (result.levels + 1)) rest.levels

end

/-- A projected item that can be written: a plain expression, under a new name or not. -/
def Expr.IsItem : Expr → Prop
  | .rename inner name => inner.IsPlain ∧ IsName name
  | e => e.IsPlain

/-- The tokens of a sort key. Ascending is not said. -/
def sortKeyTokens : Expr × Direction → List Token
  | (e, .ascending) => e.tokens
  | (e, .descending) => e.tokens ++ [.keyword .DESC]

/-! ## Queries -/

namespace Clauses

/-- Clauses that can be written: something is projected, and no clause that is there is empty. -/
structure IsWritable (c : Clauses) : Prop where
  projects : c.projection ≠ []
  items : ∀ e ∈ c.projection, e.IsItem
  condition : ∀ e ∈ c.filter, e.IsPlain
  groups : c.groupBy ≠ some []
  groupKeys : ∀ e ∈ c.groupKeys, e.IsPlain
  orders : c.orderBy ≠ some []
  sortKeys : ∀ e ∈ c.sortKeys, e.IsPlain

def expressions (c : Clauses) : List Expr := c.projection ++ c.filter.toList ++ c.groupKeys ++ c.sortKeys

/-- The deepest nesting inside the rendering of the clauses, where each expression takes a
    level. -/
def levels (c : Clauses) : Nat := (c.expressions.map (·.levels + 1)).foldr max 0

def clauseTokens {α : Type} (lead : List Token) (body : α → List Token) : Option α → List Token
  | none => []
  | some a => lead ++ body a

def tokens (c : Clauses) (source : List Token) : List Token :=
  .keyword .SELECT :: separated [.comma] (c.projection.map Expr.tokens) ++ source ++
    clauseTokens [.keyword .WHERE] Expr.tokens c.filter ++
    clauseTokens [.keyword .GROUP, .keyword .BY] (fun es => separated [.comma] (es.map Expr.tokens)) c.groupBy ++
    clauseTokens [.keyword .ORDER, .keyword .BY] (fun keys => separated [.comma] (keys.map sortKeyTokens)) c.orderBy

end Clauses

/-- Where a query stands: as a part of a union, as a whole query, as an item among others behind
    FROM, or as all that is behind FROM. -/
inductive Place where
  | select
  | query
  | item
  | source
  deriving DecidableEq

/-- Behind FROM a query is put in parentheses. -/
def Place.isFrom : Place → Bool
  | select => false
  | query => false
  | item => true
  | source => true

mutual

/-- A query that can be written at its place. A union is one of selects alone, a cross join is
    written behind FROM alone, and either has at least two parts. -/
def Query.Fits (place : Place) : Query → Prop
  | .table name => place.isFrom = true ∧ IsName name
  | .select clauses source => clauses.IsWritable ∧ Query.SourceFits source
  | .unionAll queries => place ≠ .select ∧ 2 ≤ queries.length ∧ Query.AllFit .select queries
  | .crossJoin queries => place = .source ∧ 2 ≤ queries.length ∧ Query.AllFit .item queries

def Query.AllFit (place : Place) : List Query → Prop
  | [] => True
  | q :: rest => q.Fits place ∧ Query.AllFit place rest

def Query.SourceFits : Option Query → Prop
  | none => True
  | some q => q.Fits .source

end

mutual

def Query.tokens (place : Place) : Query → List Token
  | .table name => [.ident name]
  | .select clauses source => parens place.isFrom (clauses.tokens (Query.sourceTokens source))
  | .unionAll queries =>
    parens place.isFrom (separated [.keyword .UNION, .keyword .ALL] (Query.allTokens .select queries))
  | .crossJoin queries => separated [.comma] (Query.allTokens .item queries)

def Query.allTokens (place : Place) : List Query → List (List Token)
  | [] => []
  | q :: rest => q.tokens place :: Query.allTokens place rest

def Query.sourceTokens : Option Query → List Token
  | none => []
  | some q => .keyword .FROM :: q.tokens .source

end

mutual

def Query.levels (place : Place) : Query → Nat
  | .table _ => 0
  | .select clauses source => levelsIn place.isFrom (max clauses.levels (Query.sourceLevels source))
  | .unionAll queries => levelsIn place.isFrom (Query.allLevels .select queries)
  | .crossJoin queries => Query.allLevels .item queries

def Query.allLevels (place : Place) : List Query → Nat
  | [] => 0
  | q :: rest => max (q.levels place) (Query.allLevels place rest)

def Query.sourceLevels : Option Query → Nat
  | none => 0
  | some q => q.levels .source

end

/-! ## Statements -/

namespace Statement

/-- A statement that can be written. The columns of a table have one of the two declared
    types. -/
def IsWellFormed : Statement → Prop
  | query q => q.Fits .query
  | createTable name columns => IsName name ∧ ∀ c ∈ columns, IsName c.name ∧ c.datatype ≠ .unknown

def typeTokens : DataType → List Token
  | .bool => [.keyword .BOOL]
  | .int => [.keyword .INT]
  | .unknown => []

def tokens : Statement → List Token
  | query q => q.tokens .query ++ [.semicolon]
  | createTable name columns =>
    .keyword .CREATE :: .keyword .TABLE :: .ident name :: .openParen ::
      separated [.comma] (columns.map fun c => .ident c.name :: typeTokens c.datatype) ++
      [.closeParen, .semicolon]

def levels : Statement → Nat
  | query q => q.levels .query
  | createTable _ _ => 0

/-- The text of a statement with one blank between each two tokens and keywords in capitals. -/
def render (s : Statement) : String := " ".intercalate (s.tokens.map Token.display)

end Statement

end StreamQuery
