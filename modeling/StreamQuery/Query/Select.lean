import StreamQuery.Expr.Typing
import StreamQuery.Group
import StreamQuery.Row

/-!
# Selects

A select reads one scope for each row of its source. It keeps those that its condition
lets through, folds them into groups or not, projects one record for each row or group,
and sorts the records. The types of all clauses are checked before the first row is
read, and the first error on the way is the result.
-/

namespace StreamQuery

/-- The place of a condition in WHERE, as messages name it. -/
def wherePredicate : String := "WHERE predicate"

namespace Scope

def filter (condition : Expr) : List Scope → Except Error (List Scope)
  | [] => .ok []
  | scope :: rest => do
    let v ← condition.eval scope
    let kept ← isSatisfied wherePredicate v
    let others ← filter condition rest
    .ok (if kept then scope :: others else others)

/-- The scope of the sort keys of a row: a projected item with a new name binds that name
    to its value. -/
def bindAliases (scope : Scope) : List Expr → Record → Scope
  | .rename _ name :: es, v :: vs => (scope.bind name v).bindAliases es vs
  | _ :: es, _ :: vs => scope.bindAliases es vs
  | _, _ => scope

end Scope

namespace Clauses

def passing (c : Clauses) (scopes : List Scope) : Except Error (List Scope) :=
  match c.filter with
  | some condition => Scope.filter condition scopes
  | none => .ok scopes

/-- The record and the sort keys of one row or group. -/
def project (c : Clauses) (finished : Finished) (scope : Scope) : Except Error Row := do
  let record ← c.projection.mapM (Expr.evalWith scope finished)
  let keyScope := scope.bindAliases c.projection record
  let keys ← c.sortKeys.mapM (Expr.evalWith keyScope finished)
  .ok ⟨record, keys⟩

def header (c : Clauses) (strict : Bool) (source : List Column) :
    Except Error (List Column) :=
  c.projection.mapM (Expr.inferColumn strict source)

/-- Refuses a condition that is not of a type that conditions have. -/
def checkFilter (c : Clauses) (source : List Column) : Except Error Unit :=
  match c.filter with
  | some condition => do
    let t ← condition.infer true source
    requireType true .bool (.condition wherePredicate) t
  | none => .ok ()

def checkExpr (source : List Column) (e : Expr) : Except Error Unit :=
  discard (e.infer true source)

/-- Refuses clauses other than the projection whose types do not fit. -/
def checkTypes (c : Clauses) (source : List Column) : Except Error Unit := do
  c.checkFilter source
  c.groupKeys.forM (checkExpr source)
  c.sortKeys.forM (checkExpr source)

/-- The rows folded so far: the groups, and each row's key with its scope, the latest row
    first. -/
structure Folded where
  groups : Groups
  rows : List (Record × Scope)

/-- Folds one row into the group of its key. -/
def foldRow (c : Clauses) (calls : List Call) (folded : Folded) (scope : Scope) :
    Except Error Folded := do
  let key ← c.groupKeys.mapM (Expr.eval scope)
  let arguments ← calls.mapM fun call => call.2.eval scope
  match folded.groups.add key arguments with
  | (.error e, _) => .error e
  | (.ok (), groups) => .ok ⟨groups, (key, scope) :: folded.rows⟩

/-- Projects one row for each group, in the order of the group keys. A group reads its
    columns in the scope of its first row; one without rows reads NULL everywhere. -/
def projectGroups (c : Clauses) (source : List Column) (scopes : List Scope) :
    Except Error (List Row) := do
  let calls := c.calls
  let functions ← calls.mapM fun call => call.1.function
  let start : Folded := ⟨Groups.empty functions, []⟩
  let folded ← scopes.foldlM (c.foldRow calls) start
  let results :=
    if c.groupBy.isSome then folded.groups.results else folded.groups.resultsOfOne
  let keyed := folded.rows.reverse
  results.mapM fun (key, values) =>
    c.project (calls.zip values) ((keyed.lookup key).getD (Scope.nulls source))

def rows (c : Clauses) (source : List Column) (scopes : List Scope) :
    Except Error (List Row) :=
  if c.isGrouped then c.projectGroups source scopes else scopes.mapM (c.project [])

def sorted (c : Clauses) (rows : List Row) : List Row :=
  match c.orderBy with
  | some _ => Row.sort c.directions rows
  | none => rows

/-- The result of a select over rows with a header. -/
def run (strict : Bool) (c : Clauses) (source : List Column) (scopes : List Scope) :
    Except Error Stream := do
  let header ← c.header strict source
  if strict then c.checkTypes source
  let passing ← c.passing scopes
  let rows ← c.rows source passing
  .ok ⟨header, (c.sorted rows).map Row.record⟩

theorem run_of_accepted {c : Clauses} {strict : Bool} {source columns : List Column}
    (named : c.header strict source = .ok columns) (typed : strict = true → c.checkTypes source = .ok ())
    (scopes : List Scope) :
    c.run strict source scopes = (do
      let passing ← c.passing scopes
      let rows ← c.rows source passing
      .ok ⟨columns, (c.sorted rows).map Row.record⟩) := by
  unfold run
  rw [named]
  cases strict with
  | false => rfl
  | true =>
    rw [typed rfl]
    rfl

end Clauses

end StreamQuery
