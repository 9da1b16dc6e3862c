import StreamQuery.Proofs.Grouping
import StreamQuery.Proofs.Lookup

/-!
# Sort keys that are new names

A sort key may be a new name that the projection gives to an expression, or the expression itself.
Both have one value in every row. The name is read where it hides all other values of that name; the
expression is evaluated anew there, and reads what it read in the projection if none of its own names
is hidden. It calls nothing that the projection does not call, and has a type where the projection
has, so that the groups are folded alike and the checks of types accept both.
-/

namespace StreamQuery

/-! ## New names -/

theorem lookup_bind_self (scope : Scope) (name : String) (v : Value) : (scope.bind name v).lookup name = .ok v := by
  simp [Scope.lookup, Scope.get?, Scope.bind]

theorem lookup_bind_other (scope : Scope) {name other : String} (v : Value) (different : other ≠ name) :
    (scope.bind name v).lookup other = scope.lookup other := by
  have bound : (scope.bind name v).get? other = scope.get? other := by
    show ((name, v) :: scope.bindings).lookup other = scope.bindings.lookup other
    rw [lookup_entry, if_neg different]
  rw [Scope.lookup, bound, Scope.lookup]

/-- A name that is given to no item reads what it reads without the new names. -/
theorem lookup_bindAliases_other {name : String} {es : List Expr} {record : Record} {scope : Scope}
    (other : ∀ inner, .rename inner name ∉ es) : (scope.bindAliases es record).lookup name = scope.lookup name := by
  fun_induction Scope.bindAliases scope es record with
  | case1 scope inner first es v vs ih =>
    have different : name ≠ first := fun same => other inner (by simp [same])
    rw [ih fun inner member => other inner (List.mem_cons_of_mem _ member), lookup_bind_other scope v different]
  | case2 scope vs e es v _ ih => exact ih fun inner member => other inner (List.mem_cons_of_mem _ member)
  | case3 => rfl

/-- A new name reads the value of the last item that it is given to. -/
theorem lookup_bindAliases {f : Expr → Except Error Value} {before after : List Expr} {e : Expr} {name : String}
    (last : ∀ inner, .rename inner name ∉ after) {record : Record} (scope : Scope)
    (made : (before ++ .rename e name :: after).mapM f = .ok record) :
    (scope.bindAliases (before ++ .rename e name :: after) record).lookup name = f (.rename e name) := by
  induction before generalizing record scope with
  | nil =>
    obtain ⟨v, vs, first, _, rfl⟩ := mapM_cons_eq_ok.mp made
    rw [first]
    exact (lookup_bindAliases_other last).trans (lookup_bind_self scope name v)
  | cons item before ih =>
    obtain ⟨v, vs, _, later, rfl⟩ := mapM_cons_eq_ok.mp made
    cases item with
    | rename _ first => exact ih (scope.bind first v) later
    | _ => exact ih scope later

/-- Clauses give an expression a new name: none of their later items is given that name, and the
    expression reads no name that is new. -/
structure Clauses.Names (c : Clauses) (e : Expr) (name : String) : Prop where
  last : ∃ before after, c.projection = before ++ .rename e name :: after ∧ ∀ inner, .rename inner name ∉ after
  apart : ∀ inner other, .rename inner other ∈ c.projection → other ∉ e.outerNames

/-- Sort keys with an expression for some of those that are its new name. -/
def Unaliased (e : Expr) (name : String) : List (Expr × Direction) → List (Expr × Direction) → Prop :=
  List.Forall₂ fun key unaliased => unaliased = key ∨ key.1 = .var name ∧ unaliased = (e, key.2)

section Keys

variable {c : Clauses} {e : Expr} {name : String}

/-- The new name and the expression have one value among the sort keys. -/
theorem Clauses.Names.key (named : c.Names e name) {finished : Finished} {scope : Scope} {record : Record}
    (made : c.projection.mapM (Expr.evalWith scope finished) = .ok record) :
    e.evalWith (scope.bindAliases c.projection record) finished =
      (Expr.var name).evalWith (scope.bindAliases c.projection record) finished := by
  obtain ⟨before, after, split, last⟩ := named.last
  have unhidden : ∀ other ∈ e.outerNames,
      (scope.bindAliases c.projection record).lookup other = scope.lookup other := fun other read =>
    lookup_bindAliases_other fun inner member => named.apart inner other member read
  calc e.evalWith (scope.bindAliases c.projection record) finished
      = e.evalBy finished.value (scope.bindAliases c.projection record) := evalWith_eq_evalBy _ finished e
    _ = e.evalBy finished.value scope := evalBy_congr_scope finished.value e unhidden
    _ = e.evalWith scope finished := (evalWith_eq_evalBy scope finished e).symm
    _ = (scope.bindAliases c.projection record).lookup name := by
      rw [split] at made ⊢
      exact (lookup_bindAliases last scope made).symm

/-! ## Sort keys -/

def Clauses.orderedBy (c : Clauses) (keys : List (Expr × Direction)) : Clauses := { c with orderBy := some keys }

variable {keys unaliased : List (Expr × Direction)}

/-- What is made of each sort key is the same where it is the same for the name and the expression. -/
theorem Unaliased.map {β : Type} {f : Expr → β} (replaced : Unaliased e name keys unaliased)
    (same : f e = f (.var name)) : (unaliased.map Prod.fst).map f = (keys.map Prod.fst).map f := by
  induction replaced with
  | nil => rfl
  | cons key _ ih =>
    rw [List.map_cons, List.map_cons, List.map_cons, List.map_cons, ih]
    rcases key with rfl | ⟨isName, rfl⟩
    · rfl
    · rw [same, isName]

theorem Unaliased.directions (replaced : Unaliased e name keys unaliased) :
    unaliased.map Prod.snd = keys.map Prod.snd := by
  induction replaced with
  | nil => rfl
  | cons key _ ih =>
    rw [List.map_cons, List.map_cons, ih]
    rcases key with rfl | ⟨_, rfl⟩ <;> rfl

/-- The keys add the same calls where those of the expression are known: a name adds none. -/
theorem Unaliased.addCalls (replaced : Unaliased e name keys unaliased) {calls : List Call}
    (known : ∀ call ∈ e.outerCalls, call ∈ calls) :
    (unaliased.map Prod.fst).foldl Expr.addCalls calls = (keys.map Prod.fst).foldl Expr.addCalls calls := by
  induction replaced generalizing calls with
  | nil => rfl
  | cons key _ ih =>
    rw [List.map_cons, List.map_cons, List.foldl_cons, List.foldl_cons]
    rcases key with rfl | ⟨isName, rfl⟩
    · exact ih fun call member => mem_addCalls.mpr (.inl (known call member))
    · rw [addCalls_known e known, isName]
      exact ih known

theorem Clauses.Names.calls (named : c.Names e name) (replaced : Unaliased e name keys unaliased) :
    (c.orderedBy unaliased).calls = (c.orderedBy keys).calls := by
  obtain ⟨before, after, split, -⟩ := named.last
  have known : ∀ call ∈ e.outerCalls, call ∈ callsOf c.projection := by
    intro call member
    rw [mem_callsOf, List.mem_flatMap]
    exact ⟨.rename e name, by simp [split], member⟩
  show callsOf (c.projection ++ unaliased.map Prod.fst) = callsOf (c.projection ++ keys.map Prod.fst)
  rw [callsOf, callsOf, List.foldl_append, List.foldl_append]
  exact replaced.addCalls known

/-- A row or a group is projected to the same record with the same values of its sort keys. -/
theorem Clauses.Names.project (named : c.Names e name) (replaced : Unaliased e name keys unaliased)
    (finished : Finished) (scope : Scope) :
    (c.orderedBy unaliased).project finished scope = (c.orderedBy keys).project finished scope := by
  have projected : ∀ order, (c.orderedBy order).project finished scope = (do
      let record ← c.projection.mapM (Expr.evalWith scope finished)
      let values ← (order.map Prod.fst).mapM (Expr.evalWith (scope.bindAliases c.projection record) finished)
      .ok ⟨record, values⟩) := fun _ => rfl
  rw [projected, projected]
  cases made : c.projection.mapM (Expr.evalWith scope finished) with
  | error _ => rfl
  | ok record =>
    have values := mapM_of_map (replaced.map (named.key made))
    exact congrArg (fun evaluated => evaluated >>= fun values => Except.ok (Row.mk record values)) values

theorem Clauses.Names.rows (named : c.Names e name) (replaced : Unaliased e name keys unaliased) (source : List Column)
    (scopes : List Scope) : (c.orderedBy unaliased).rows source scopes = (c.orderedBy keys).rows source scopes := by
  have project : (c.orderedBy unaliased).project = (c.orderedBy keys).project :=
    funext fun finished => funext fun scope => named.project replaced finished scope
  have groups :
      (c.orderedBy unaliased).projectGroups source scopes = (c.orderedBy keys).projectGroups source scopes := by
    unfold Clauses.projectGroups
    rw [named.calls replaced, project]
    rfl
  unfold Clauses.rows
  rw [project, groups]
  rfl

/-- Where the projection has types, those of the sort keys are accepted alike: the expression has one
    since its item has, and so has every name. -/
theorem Clauses.Names.checkTypes (named : c.Names e name) (replaced : Unaliased e name keys unaliased)
    {source columns : List Column} (typed : c.header true source = .ok columns) :
    (c.orderedBy unaliased).checkTypes source = (c.orderedBy keys).checkTypes source := by
  obtain ⟨before, after, split, -⟩ := named.last
  have item : .rename e name ∈ c.projection := by simp [split]
  obtain ⟨column, inferred⟩ := mapM_ok_iff.mp ⟨columns, typed⟩ _ item
  obtain ⟨t, type, _⟩ := bind_eq_ok.mp inferred
  have accepted : checkExpr source e = checkExpr source (.var name) := by
    unfold checkExpr
    rw [show e.infer true source = .ok t from type]
    rfl
  have sortKeys : (c.orderedBy unaliased).sortKeys.forM (checkExpr source) =
      (c.orderedBy keys).sortKeys.forM (checkExpr source) := forM_of_map (replaced.map accepted)
  unfold Clauses.checkTypes
  rw [sortKeys]
  rfl

theorem Clauses.Names.run (named : c.Names e name) (replaced : Unaliased e name keys unaliased) (strict : Bool)
    (source : List Column) (scopes : List Scope) :
    (c.orderedBy unaliased).run strict source scopes = (c.orderedBy keys).run strict source scopes := by
  have sorted : (c.orderedBy unaliased).sorted = (c.orderedBy keys).sorted := by
    funext rows
    show Row.sort (unaliased.map Prod.snd) rows = Row.sort (keys.map Prod.snd) rows
    rw [replaced.directions]
  have rows := named.rows replaced source
  have header : (c.orderedBy unaliased).header strict source = (c.orderedBy keys).header strict source := rfl
  have passing : (c.orderedBy unaliased).passing scopes = (c.orderedBy keys).passing scopes := rfl
  unfold Clauses.run
  simp only [header, passing, rows, sorted]
  cases typed : (c.orderedBy keys).header strict source with
  | error _ => rfl
  | ok columns =>
    cases strict with
    | false => rfl
    | true => rw [named.checkTypes replaced typed]

end Keys

/-- Ordering by a new name is ordering by the expression that has it. -/
theorem eval_orderBy_alias {checks : Checks} {tables : Tables} {c : Clauses} {source : Option Query} {e : Expr}
    {name : String} (named : c.Names e name) {keys unaliased : List (Expr × Direction)}
    (replaced : Unaliased e name keys unaliased) :
    (Query.select { c with orderBy := some unaliased } source).eval checks tables =
      (Query.select { c with orderBy := some keys } source).eval checks tables := by
  have run : (c.orderedBy unaliased).run checks.types = (c.orderedBy keys).run checks.types :=
    funext fun header => funext fun scopes => named.run replaced checks.types header scopes
  show (Query.evalSource checks tables source >>= fun read => (c.orderedBy unaliased).run checks.types read.1 read.2) =
    (Query.evalSource checks tables source >>= fun read => (c.orderedBy keys).run checks.types read.1 read.2)
  rw [run]

/-- The theorem at groups that are sorted by a sum: its new name hides the column that is summed, and
    not the one that is added to it. The same where a value cannot be summed. -/
theorem eval_orderBy_alias_sum :
    let table (records : List Record) : Tables := fun _ => .ok ⟨[⟨"k", .int⟩, ⟨"n", .int⟩], records⟩
    let tables := table [[.int 1, .int 5], [.int 2, .int 1], [.int 1, .int 1]]
    let mistyped := table [[.int 1, .int 5], [.int 2, .bool true]]
    let e : Expr := .binary (.arith .add) (.call .sum (.var "n")) (.var "k")
    let c : Clauses := ⟨[.rename e "n", .var "k"], none, some [.var "k"], none⟩
    let q (keys : List (Expr × Direction)) : Query := .select { c with orderBy := some keys } (some (.table "t"))
    (q [(e, .ascending)]).eval ⟨true, true⟩ tables = (q [(.var "n", .ascending)]).eval ⟨true, true⟩ tables ∧
      (q [(.var "n", .ascending)]).eval ⟨true, true⟩ tables =
        .ok ⟨[⟨"n", .int⟩, ⟨"k", .int⟩], [[.int 3, .int 2], [.int 7, .int 1]]⟩ ∧
      (q [(e, .ascending)]).eval ⟨true, false⟩ mistyped = (q [(.var "n", .ascending)]).eval ⟨true, false⟩ mistyped ∧
      ((q [(.var "n", .ascending)]).eval ⟨true, false⟩ mistyped).isOk = false := by
  intro table tables mistyped e c q
  have named : c.Names e "n" := by
    refine ⟨⟨[], [.var "k"], rfl, by simp⟩, fun inner other member => ?_⟩
    simp only [c, List.mem_cons, List.not_mem_nil, or_false, Expr.rename.injEq, reduceCtorEq] at member
    simp [member.2, e, Expr.outerNames]
  have keys : Unaliased e "n" [(.var "n", .ascending)] [(e, .ascending)] := .cons (.inr ⟨rfl, rfl⟩) .nil
  have behind : Row.compareKeys [.int 7] [.int 3] [.ascending] = .gt := by decide
  have sort : Row.sort [.ascending] [⟨[.int 7, .int 1], [.int 7]⟩, ⟨[.int 3, .int 2], [.int 3]⟩] =
      [⟨[.int 3, .int 2], [.int 3]⟩, ⟨[.int 7, .int 1], [.int 7]⟩] := by
    simp [Row.sort, List.mergeSort, List.MergeSort.Internal.splitInTwo, behind]
  refine ⟨eval_orderBy_alias named keys, ?_, eval_orderBy_alias named keys, by decide⟩
  refine bind_eq_ok.mpr ⟨_, rfl, run_eq_ok.mpr ⟨rfl, fun _ => rfl, _, _, rfl, rfl, ?_⟩⟩
  exact congrArg (List.map Row.record) sort.symm

end StreamQuery
