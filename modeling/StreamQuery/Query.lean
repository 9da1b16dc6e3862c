import StreamQuery.Column
import StreamQuery.Expr

/-!
# Queries and statements

A query is a table, a select, a union or a cross join of queries. A statement is a query
or the declaration of a table.
-/

namespace StreamQuery

inductive Direction where
  | ascending
  | descending
  deriving DecidableEq

/-- The clauses of a select but FROM. A clause that is absent is not the same as one that
    is empty. -/
structure Clauses where
  projection : List Expr
  filter : Option Expr
  groupBy : Option (List Expr)
  orderBy : Option (List (Expr × Direction))
  deriving DecidableEq

/-- A query. A select without a source reads one row without columns. -/
inductive Query where
  | table (name : String)
  | select (clauses : Clauses) (source : Option Query)
  | unionAll (queries : List Query)
  | crossJoin (queries : List Query)

inductive Statement where
  | query (query : Query)
  | createTable (name : String) (columns : List Column)

namespace Clauses

def sortKeys (c : Clauses) : List Expr := (c.orderBy.getD []).map Prod.fst

def directions (c : Clauses) : List Direction := (c.orderBy.getD []).map Prod.snd

def groupKeys (c : Clauses) : List Expr := c.groupBy.getD []

/-- Whether rows are folded into groups: they are grouped, or the projection calls an
    aggregate function. -/
def isGrouped (c : Clauses) : Bool := c.groupBy.isSome || c.projection.any Expr.hasCall

/-- The calls that each group has to finish: those of the projection, then those of the
    sort keys. -/
def calls (c : Clauses) : List Call := callsOf (c.projection ++ c.sortKeys)

end Clauses

namespace Query

/-- The union of some queries; that of one query is the query itself. -/
def union : List Query → Query
  | [q] => q
  | queries => unionAll queries

/-- The cross join of some queries; that of one query is the query itself. -/
def product : List Query → Query
  | [q] => q
  | queries => crossJoin queries

end Query

end StreamQuery
