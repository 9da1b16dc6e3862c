import Mathlib.Data.Nat.Digits.Defs
import StreamQuery.Parser.Statement

/-!
# The grammar of statements

Which tokens are which statement. The grammar knows nothing of how tokens are read: what a number
stands for, which word calls which function, how tightly an operator binds and what a query of one part
is are written here for themselves. An expression is layered: comparisons, sums, products, NOT and
atoms.

A construct that can hold itself takes one nesting level: a full expression, the operand of
NOT, the right operand of an operator, and a query in parentheses. The constructs of one level
are built over those of the levels below it, and at no level there are none. So the tokens of a
construct with `n` levels never lie inside more than `n` of them.
-/

namespace StreamQuery

def BinaryOp.token : BinaryOp → Token
  | .arith .add => .plus
  | .arith .sub => .minus
  | .arith .mul => .asterisk
  | .arith .div => .slash
  | .compare .eq => .equal
  | .compare .ne => .notEqual
  | .compare .lt => .lessThan
  | .compare .le => .lessOrEqual
  | .compare .gt => .greaterThan
  | .compare .ge => .greaterOrEqual

namespace Grammar

/-- Which tokens stand for which values. -/
abbrev Derivation (α : Type) := List Token → α → Prop

section Repetition

variable {α : Type}

/-- Any number of parts, each behind the given tokens. -/
inductive Repeated (lead : List Token) (part : Derivation α) : Derivation (List α) where
  | nil : Repeated lead part [] []
  | cons {first rest : List Token} {a : α} {others : List α} (head : part first a)
      (tail : Repeated lead part rest others) :
      Repeated lead part (lead ++ first ++ rest) (a :: others)

/-- One or more parts with the given tokens between each two. -/
inductive Separated (between : List Token) (part : Derivation α) : Derivation (List α) where
  | intro {first rest : List Token} {a : α} {others : List α} (head : part first a)
      (tail : Repeated between part rest others) : Separated between part (first ++ rest) (a :: others)

/-- A part behind the given tokens, or nothing. -/
inductive Clause (lead : List Token) (part : Derivation α) : Derivation (Option α) where
  | absent : Clause lead part [] none
  | present {ts : List Token} {a : α} (body : part ts a) : Clause lead part (lead ++ ts) (some a)

end Repetition

/-! ## Expressions -/

section Expressions

/-- The arms of a CASE over full expressions, up to END. -/
inductive ArmsOver (full : Derivation Expr) : Derivation Arms where
  | done : ArmsOver full [.keyword .END] .done
  | otherwise {ts : List Token} {result : Expr} (derived : full ts result) :
      ArmsOver full (.keyword .ELSE :: ts ++ [.keyword .END]) (.otherwise result)
  | when {cs rs ts : List Token} {condition result : Expr} {rest : Arms} (test : full cs condition)
      (value : full rs result) (others : ArmsOver full ts rest) :
      ArmsOver full (.keyword .WHEN :: cs ++ .keyword .THEN :: rs ++ ts) (.when condition result rest)

/-- The number that decimal digits stand for, the last digit being the ones. -/
def valueOf (digits : String) : Nat :=
  Nat.ofDigits 10 (digits.toList.reverse.map fun c => c.toNat - '0'.toNat)

/-- The words that call an aggregate function: its name in any letter case. -/
inductive Calls : String → AggregateKind → Prop where
  | boolOr {word : String} (letters : Text.lowerAscii word = "bool_or") : Calls word .boolOr
  | sum {word : String} (letters : Text.lowerAscii word = "sum") : Calls word .sum

/-- An operand without NOT over full expressions: a number of 64 bits with sign, TRUE, FALSE, NULL, a
    column, a call of an aggregate function, a CASE, or an expression in parentheses. -/
inductive AtomOver (full : Derivation Expr) : Derivation Expr where
  | number {digits : String} (fits : valueOf digits ≤ 9223372036854775807) :
      AtomOver full [.number digits] (.lit (.int (valueOf digits)))
  | true : AtomOver full [.keyword .TRUE] (.lit (.bool true))
  | false : AtomOver full [.keyword .FALSE] (.lit (.bool false))
  | null : AtomOver full [.keyword .NULL] (.lit .null)
  | column (name : String) : AtomOver full [.ident name] (.var name)
  | call {word : String} {kind : AggregateKind} {ts : List Token} {argument : Expr}
      (called : Calls word kind) (derived : full ts argument) :
      AtomOver full (.ident word :: .openParen :: ts ++ [.closeParen]) (.call kind argument)
  | case {ts : List Token} {arms : Arms} (derived : ArmsOver full ts arms) :
      AtomOver full (.keyword .CASE :: ts) (.case arms)
  | parens {ts : List Token} {e : Expr} (derived : full ts e) :
      AtomOver full (.openParen :: ts ++ [.closeParen]) e

/-- The layer of an operator between two operands: 1 for comparisons, 2 for sums, 3 for products. -/
inductive Binds : BinaryOp → Nat → Prop where
  | comparison (op : CompareOp) : Binds (.compare op) 1
  | add : Binds (.arith .add) 2
  | sub : Binds (.arith .sub) 2
  | mul : Binds (.arith .mul) 3
  | div : Binds (.arith .div) 3

/-- The layers of expressions, where `inner p` are the expressions of the layer `p` that take a
    level of their own. The operators of a layer group to the left; NOT is the layer 4 and atoms are
    the layer 5, and a layer contains every tighter one. -/
inductive Layer (inner : Nat → Derivation Expr) : Nat → Derivation Expr where
  | binary {op : BinaryOp} {p : Nat} {ls rs : List Token} {left right : Expr} (binds : Binds op p)
      (first : Layer inner p ls left) (second : inner (p + 1) rs right) :
      Layer inner p (ls ++ op.token :: rs) (.binary op left right)
  | not {ts : List Token} {operand : Expr} (derived : inner 4 ts operand) :
      Layer inner 4 (.keyword .NOT :: ts) (.not operand)
  | atom {ts : List Token} {e : Expr} (derived : AtomOver (inner 0) ts e) : Layer inner 5 ts e
  | tighter {p : Nat} {ts : List Token} {e : Expr} (derived : Layer inner (p + 1) ts e) :
      Layer inner p ts e

/-- The expressions of a layer with so many levels. The full expressions are those of the
    layer 0. -/
def Expression : Nat → Nat → Derivation Expr
  | 0 => fun _ _ _ => False
  | levels + 1 => Layer (Expression levels)

end Expressions

/-! ## Queries and statements -/

/-- A projected expression, under a new name if AS follows. -/
inductive Projected (full : Derivation Expr) : Derivation Expr where
  | plain {ts : List Token} {e : Expr} (derived : full ts e) : Projected full ts e
  | renamed {ts : List Token} {e : Expr} (name : String) (derived : full ts e) :
      Projected full (ts ++ [.keyword .AS, .ident name]) (.rename e name)

/-- A sort key; without a direction it ascends. -/
inductive SortKey (full : Derivation Expr) : Derivation (Expr × Direction) where
  | plain {ts : List Token} {e : Expr} (derived : full ts e) : SortKey full ts (e, .ascending)
  | ascending {ts : List Token} {e : Expr} {k : Keyword} (word : k = .ASC ∨ k = .ASCENDING)
      (derived : full ts e) : SortKey full (ts ++ [.keyword k]) (e, .ascending)
  | descending {ts : List Token} {e : Expr} {k : Keyword} (word : k = .DESC ∨ k = .DESCENDING)
      (derived : full ts e) : SortKey full (ts ++ [.keyword k]) (e, .descending)

/-- An item of FROM: a table, or a query in parentheses. -/
inductive FromItem (nested : Derivation Query) : Derivation Query where
  | table (name : String) : FromItem nested [.ident name] (.table name)
  | query {ts : List Token} {q : Query} (derived : nested ts q) :
      FromItem nested (.openParen :: ts ++ [.closeParen]) q

/-- Queries with these tokens between them: one as it is, or two or more put together. -/
inductive Joined (between : List Token) (part : Derivation Query) (together : List Query → Query) :
    Derivation Query where
  | one {ts : List Token} {q : Query} (derived : part ts q) : Joined between part together ts q
  | several {ts : List Token} {first second : Query} {others : List Query}
      (derived : Separated between part ts (first :: second :: others)) :
      Joined between part together ts (together (first :: second :: others))

/-- The items of FROM, of which several are a cross join. -/
abbrev Source (nested : Derivation Query) : Derivation Query := Joined [.comma] (FromItem nested) .crossJoin

/-- A select with its clauses in their order. -/
inductive Select (full : Derivation Expr) (nested : Derivation Query) : Derivation Query where
  | intro {ps ss ws gs os : List Token} {projection : List Expr} {source : Option Query}
      {filter : Option Expr} {groupBy : Option (List Expr)} {orderBy : Option (List (Expr × Direction))}
      (items : Separated [.comma] (Projected full) ps projection)
      (sources : Clause [.keyword .FROM] (Source nested) ss source)
      (condition : Clause [.keyword .WHERE] full ws filter)
      (group : Clause [.keyword .GROUP, .keyword .BY] (Separated [.comma] full) gs groupBy)
      (order : Clause [.keyword .ORDER, .keyword .BY] (Separated [.comma] (SortKey full)) os orderBy) :
      Select full nested (.keyword .SELECT :: ps ++ ss ++ ws ++ gs ++ os)
        (.select ⟨projection, filter, groupBy, orderBy⟩ source)

/-- A query: a select, or the union of several with UNION ALL between them. -/
abbrev QueryOver (full : Derivation Expr) (nested : Derivation Query) : Derivation Query :=
  Joined [.keyword .UNION, .keyword .ALL] (Select full nested) .unionAll

/-- A query that takes a level of its own, with so many levels. -/
def NestedQuery : Nat → Derivation Query
  | 0 => fun _ _ => False
  | levels + 1 => QueryOver (Expression levels 0) (NestedQuery levels)

inductive ColumnOf : Derivation Column where
  | int (name : String) : ColumnOf [.ident name, .keyword .INT] ⟨name, .int⟩
  | bool (name : String) : ColumnOf [.ident name, .keyword .BOOL] ⟨name, .bool⟩

/-- The columns of a declaration, which may be none. -/
inductive ColumnsOf : Derivation (List Column) where
  | none : ColumnsOf [] []
  | some {ts : List Token} {columns : List Column} (derived : Separated [.comma] ColumnOf ts columns) :
      ColumnsOf ts columns

/-- A statement with its semicolon, with so many nesting levels. -/
inductive StatementOf (levels : Nat) : Derivation Statement where
  | query {ts : List Token} {q : Query}
      (derived : QueryOver (Expression levels 0) (NestedQuery levels) ts q) :
      StatementOf levels (ts ++ [.semicolon]) (.query q)
  | createTable (name : String) {ts : List Token} {columns : List Column} (derived : ColumnsOf ts columns) :
      StatementOf levels
        (.keyword .CREATE :: .keyword .TABLE :: .ident name :: .openParen :: ts ++ [.closeParen, .semicolon])
        (.createTable name columns)

end Grammar

end StreamQuery
