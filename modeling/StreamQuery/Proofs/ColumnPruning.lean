import StreamQuery.Proofs.Calls
import StreamQuery.Proofs.Lookup
import StreamQuery.Proofs.PreorderVisits
import StreamQuery.Proofs.Rendering
import StreamQuery.Query.Eval

/-!
# Columns that a select does not read

A select reads its source through the names that occur in its clauses, and through nothing else: not
through places, and not through the header as a whole. Two sources that agree on those names, in the
types of their columns and in their values row by row, have the same result, errors included. The
proof follows two runs side by side. Each stage ends alike in both, with the same error or with
related results (`EndAlike`): filtered scopes that agree on the names, folded rows with the same
groups, and from there on equal rows.
-/

namespace StreamQuery

/-! ## Names that occur -/

/-- A name occurs in an expression: one of the nodes reads it, be it in the argument of a call. -/
def Expr.Mentions (e : Expr) (name : String) : Prop := .var name ∈ e.nodes

def Clauses.Mentions (c : Clauses) (name : String) : Prop := ∃ e ∈ c.expressions, e.Mentions name

mutual

theorem mentions_of_outerNames {name : String} :
    ∀ e : Expr, name ∈ e.outerNames → e.Mentions name
  | .lit _, read => by cases read
  | .call _ _, read => by cases read
  | .var _, read => by rw [List.mem_singleton.mp read]; exact List.mem_singleton_self _
  | .rename inner _, read => List.mem_cons_of_mem _ (mentions_of_outerNames inner read)
  | .not operand, read => List.mem_cons_of_mem _ (mentions_of_outerNames operand read)
  | .binary _ left right, read => by
    refine List.mem_cons_of_mem _ (List.mem_append.mpr ?_)
    exact (List.mem_append.mp read).imp (mentions_of_outerNames left) (mentions_of_outerNames right)
  | .case arms, read => List.mem_cons_of_mem _ (mentions_of_outerArmNames arms read)

theorem mentions_of_outerArmNames {name : String} :
    ∀ arms : Arms, name ∈ arms.outerNames → .var name ∈ arms.nodes
  | .done, read => by cases read
  | .otherwise result, read => mentions_of_outerNames result read
  | .when condition result rest, read => by
    rw [Arms.outerNames, List.append_assoc, List.mem_append, List.mem_append] at read
    rw [Arms.nodes, List.mem_append, List.mem_append]
    exact read.imp (mentions_of_outerNames condition)
      (Or.imp (mentions_of_outerNames result) (mentions_of_outerArmNames rest))

end

mutual

/-- What occurs in the argument of a call occurs in the expression. -/
theorem nodes_of_outerCalls {call : Call} {node : Expr} (inside : node ∈ call.2.nodes) :
    ∀ e : Expr, call ∈ e.outerCalls → node ∈ e.nodes
  | .lit _, called => by cases called
  | .var _, called => by cases called
  | .call _ _, called => by
    rw [List.mem_singleton.mp called] at inside
    exact List.mem_cons_of_mem _ inside
  | .rename inner _, called => List.mem_cons_of_mem _ (nodes_of_outerCalls inside inner called)
  | .not operand, called => List.mem_cons_of_mem _ (nodes_of_outerCalls inside operand called)
  | .binary _ left right, called => by
    refine List.mem_cons_of_mem _ (List.mem_append.mpr ?_)
    exact (List.mem_append.mp called).imp (nodes_of_outerCalls inside left) (nodes_of_outerCalls inside right)
  | .case arms, called => List.mem_cons_of_mem _ (nodes_of_outerArmCalls inside arms called)

theorem nodes_of_outerArmCalls {call : Call} {node : Expr} (inside : node ∈ call.2.nodes) :
    ∀ arms : Arms, call ∈ arms.outerCalls → node ∈ arms.nodes
  | .done, called => by cases called
  | .otherwise result, called => nodes_of_outerCalls inside result called
  | .when condition result rest, called => by
    rw [Arms.outerCalls, List.append_assoc, List.mem_append, List.mem_append] at called
    rw [Arms.nodes, List.mem_append, List.mem_append]
    exact called.imp (nodes_of_outerCalls inside condition)
      (Or.imp (nodes_of_outerCalls inside result) (nodes_of_outerArmCalls inside rest))

end

section Clauses

variable {c : Clauses} {e : Expr} {name : String}

theorem mentions_projection (member : e ∈ c.projection) (occurs : e.Mentions name) : c.Mentions name :=
  ⟨e, by simp [Clauses.expressions, member], occurs⟩

theorem mentions_filter (member : c.filter = some e) (occurs : e.Mentions name) : c.Mentions name :=
  ⟨e, by simp [Clauses.expressions, member], occurs⟩

theorem mentions_groupKey (member : e ∈ c.groupKeys) (occurs : e.Mentions name) : c.Mentions name :=
  ⟨e, by simp [Clauses.expressions, member], occurs⟩

theorem mentions_sortKey (member : e ∈ c.sortKeys) (occurs : e.Mentions name) : c.Mentions name :=
  ⟨e, by simp [Clauses.expressions, member], occurs⟩

theorem mentions_call {call : Call} (member : call ∈ c.calls) (occurs : call.2.Mentions name) :
    c.Mentions name := by
  obtain ⟨e, inside, called⟩ := List.mem_flatMap.mp (mem_callsOf.mp member)
  have node : e.Mentions name := nodes_of_outerCalls occurs e called
  rcases List.mem_append.mp inside with projected | key
  · exact mentions_projection projected node
  · exact mentions_sortKey key node

end Clauses

/-! ## Two computations side by side -/

section Outcomes

variable {ε α β γ δ : Type} {related : α → β → Prop}

/-- Two computations end alike: with the same error, or with results that are related. -/
inductive EndAlike (related : α → β → Prop) : Except ε α → Except ε β → Prop where
  | error (e : ε) : EndAlike related (.error e) (.error e)
  | ok {a : α} {b : β} (results : related a b) : EndAlike related (.ok a) (.ok b)

theorem endAlike_of_eq {one other : Except ε α} (same : one = other) : EndAlike Eq one other := by
  subst same
  cases one with
  | error e => exact .error e
  | ok a => exact .ok rfl

theorem EndAlike.bind {one : Except ε α} {other : Except ε β} {f : α → Except ε γ} {g : β → Except ε δ}
    {after : γ → δ → Prop} (first : EndAlike related one other)
    (next : ∀ a b, related a b → EndAlike after (f a) (g b)) : EndAlike after (one >>= f) (other >>= g) := by
  cases first with
  | error e => exact .error e
  | ok results => exact next _ _ results

/-- Computations that end alike go on to one result if what follows them does. -/
theorem EndAlike.bind_eq {one : Except ε α} {other : Except ε β} {f : α → Except ε γ} {g : β → Except ε γ}
    (first : EndAlike related one other) (next : ∀ a b, related a b → f a = g b) : one >>= f = other >>= g := by
  cases first with
  | error e => rfl
  | ok results => exact next _ _ results

/-- By induction on the lists: the states stay related, step by step. -/
theorem EndAlike.foldlM {σ τ : Type} {states : σ → τ → Prop} {f : σ → α → Except ε σ} {g : τ → β → Except ε τ}
    (step : ∀ s t a b, states s t → related a b → EndAlike states (f s a) (g t b)) {as : List α} {bs : List β}
    (each : List.Forall₂ related as bs) {s : σ} {t : τ} (start : states s t) :
    EndAlike states (as.foldlM f s) (bs.foldlM g t) := by
  induction each generalizing s t with
  | nil => exact .ok start
  | cons first _ ih =>
    rw [List.foldlM_cons, List.foldlM_cons]
    exact (step _ _ _ _ start first).bind fun _ _ next => ih next

end Outcomes

/-! ## Headers that agree -/

/-- The type of the first column with a name, if there is one. -/
def columnType? (header : List Column) (name : String) : Option DataType :=
  (header.find? (·.name == name)).map Column.datatype

theorem columnType_eq_getD (header : List Column) (name : String) :
    columnType header name = (columnType? header name).getD .unknown := by
  unfold columnType columnType?
  cases header.find? (·.name == name) <;> rfl

section Headers

variable {strict : Bool} {one other : List Column}

mutual

/-- An expression has one type, or one error, over headers that agree on its names. -/
theorem infer_congr : ∀ e : Expr, (∀ name, e.Mentions name → columnType? one name = columnType? other name) →
    e.infer strict one = e.infer strict other
  | .lit _, _ => rfl
  | .var name, agree => by
    rw [Expr.infer, Expr.infer, columnType_eq_getD, columnType_eq_getD, agree name (List.mem_singleton_self _)]
  | .rename inner _, agree => infer_congr inner fun name occurs => agree name (List.mem_cons_of_mem _ occurs)
  | .not operand, agree => by
    rw [Expr.infer, Expr.infer, infer_congr operand fun name occurs => agree name (List.mem_cons_of_mem _ occurs)]
  | .call _ argument, agree => by
    rw [Expr.infer, Expr.infer, infer_congr argument fun name occurs => agree name (List.mem_cons_of_mem _ occurs)]
  | .binary _ left right, agree => by
    have inside : ∀ name, .var name ∈ left.nodes ++ right.nodes → columnType? one name = columnType? other name :=
      fun name occurs => agree name (List.mem_cons_of_mem _ occurs)
    rw [Expr.infer, Expr.infer, infer_congr left fun name occurs => inside name (List.mem_append_left _ occurs),
      infer_congr right fun name occurs => inside name (List.mem_append_right _ occurs)]
  | .case arms, agree => inferArms_congr .unknown arms fun name occurs => agree name (List.mem_cons_of_mem _ occurs)

theorem inferArms_congr (soFar : DataType) :
    ∀ arms : Arms, (∀ name, .var name ∈ arms.nodes → columnType? one name = columnType? other name) →
      arms.infer strict one soFar = arms.infer strict other soFar
  | .done, _ => rfl
  | .otherwise result, agree => by
    rw [Arms.infer, Arms.infer, infer_congr result agree]
  | .when condition result rest, agree => by
    simp only [Arms.nodes, List.mem_append] at agree
    have others : ∀ merged, rest.infer strict one merged = rest.infer strict other merged := fun merged =>
      inferArms_congr merged rest fun name occurs => agree name (.inr (.inr occurs))
    rw [Arms.infer, Arms.infer, infer_congr condition fun name occurs => agree name (.inl occurs),
      infer_congr result fun name occurs => agree name (.inr (.inl occurs))]
    simp only [others]

end

variable {c : Clauses} (agree : ∀ name, c.Mentions name → columnType? one name = columnType? other name)

include agree

theorem header_congr : c.header strict one = c.header strict other := by
  refine mapM_congr fun e projected => ?_
  unfold Expr.inferColumn
  rw [infer_congr e fun name occurs => agree name (mentions_projection projected occurs)]

theorem checkTypes_congr : c.checkTypes one = c.checkTypes other := by
  have accepted : ∀ e : Expr, (∀ name, e.Mentions name → c.Mentions name) →
      Clauses.checkExpr one e = Clauses.checkExpr other e := by
    intro e inside
    unfold Clauses.checkExpr
    rw [infer_congr e fun name occurs => agree name (inside name occurs)]
  have filter : c.checkFilter one = c.checkFilter other := by
    unfold Clauses.checkFilter
    cases condition : c.filter with
    | none => rfl
    | some e =>
      have type : e.infer true one = e.infer true other :=
        infer_congr e fun name occurs => agree name (mentions_filter condition occurs)
      simp only [type]
  unfold Clauses.checkTypes
  rw [filter, forM_congr fun e member => accepted e fun _ => mentions_groupKey member,
    forM_congr fun e member => accepted e fun _ => mentions_sortKey member]

end Headers

/-! ## Scopes that agree -/

/-- Two scopes agree on some names: each of those is bound to one value in both, or in neither. -/
def Scope.AgreeOn (read : String → Prop) (one other : Scope) : Prop :=
  ∀ name, read name → one.get? name = other.get? name

namespace Scope.AgreeOn

variable {read : String → Prop} {one other : Scope} (agree : one.AgreeOn read other)

include agree

theorem evalWith {e : Expr} (inside : ∀ name, e.Mentions name → read name) (finished : Finished) :
    e.evalWith one finished = e.evalWith other finished := by
  rw [evalWith_eq_evalBy, evalWith_eq_evalBy]
  refine evalBy_congr_scope _ e fun name occurs => ?_
  unfold Scope.lookup
  rw [agree name (inside name (mentions_of_outerNames e occurs))]

theorem bind (name : String) (v : Value) : (one.bind name v).AgreeOn read (other.bind name v) := by
  intro n inside
  show ((name, v) :: one.bindings).lookup n = ((name, v) :: other.bindings).lookup n
  rw [lookup_entry, lookup_entry]
  exact congrArg (fun found => if n = name then some v else found) (agree n inside)

theorem bindAliases (es : List Expr) (record : Record) :
    (one.bindAliases es record).AgreeOn read (other.bindAliases es record) := by
  induction es generalizing one other record with
  | nil => exact agree
  | cons e es ih =>
    cases record with
    | nil => cases e <;> exact agree
    | cons v vs =>
      cases e with
      | rename _ name => exact ih (agree.bind name v) vs
      | _ => exact ih agree vs

end Scope.AgreeOn

/-! ## Stages of a select -/

section Stages

variable {c : Clauses} {one other : List Scope}

/-- The stages read scopes that agree on the names of the clauses, place by place. -/
abbrev Clauses.Alike (c : Clauses) (one other : List Scope) : Prop := List.Forall₂ (Scope.AgreeOn c.Mentions) one other

theorem filter_alike {condition : Expr} (inside : ∀ name, condition.Mentions name → c.Mentions name)
    (alike : c.Alike one other) : EndAlike c.Alike (Scope.filter condition one) (Scope.filter condition other) := by
  induction alike with
  | nil => exact .ok .nil
  | @cons s t ss ts agree _ ih =>
    have value : condition.eval s = condition.eval t := agree.evalWith inside []
    refine (endAlike_of_eq value).bind fun v _ same => ?_
    subst same
    refine (endAlike_of_eq rfl).bind fun kept _ same => ?_
    subst same
    refine ih.bind fun others others' later => .ok ?_
    cases kept with
    | false => exact later
    | true => exact .cons agree later

theorem passing_alike (alike : c.Alike one other) : EndAlike c.Alike (c.passing one) (c.passing other) := by
  unfold Clauses.passing
  cases condition : c.filter with
  | none => exact .ok alike
  | some e => exact filter_alike (fun _ => mentions_filter condition) alike

theorem project_congr {s t : Scope} (agree : s.AgreeOn c.Mentions t) (finished : Finished) :
    c.project finished s = c.project finished t := by
  unfold Clauses.project
  rw [mapM_congr fun e projected => agree.evalWith (fun _ => mentions_projection projected) finished]
  refine bind_congr fun record => ?_
  have keyScope := agree.bindAliases c.projection record
  simp only
  rw [mapM_congr fun e key => keyScope.evalWith (fun _ => mentions_sortKey key) finished]

/-- Rows folded side by side: the same groups, and the same keys with scopes that agree. -/
structure FoldedAlike (c : Clauses) (one other : Clauses.Folded) : Prop where
  groups : one.groups = other.groups
  rows : List.Forall₂ (fun a b => a.1 = b.1 ∧ Scope.AgreeOn c.Mentions a.2 b.2) one.rows other.rows

theorem foldRow_alike {calls : List Call} (made : ∀ call ∈ calls, call ∈ c.calls) {one other : Clauses.Folded}
    (alike : FoldedAlike c one other) {s t : Scope} (agree : s.AgreeOn c.Mentions t) :
    EndAlike (FoldedAlike c) (c.foldRow calls one s) (c.foldRow calls other t) := by
  have key : c.groupKeys.mapM (Expr.eval s) = c.groupKeys.mapM (Expr.eval t) :=
    mapM_congr fun e member => agree.evalWith (fun _ => mentions_groupKey member) []
  have arguments : (calls.mapM fun call => call.2.eval s) = calls.mapM fun call => call.2.eval t :=
    mapM_congr fun call member => agree.evalWith (fun _ => mentions_call (made call member)) []
  refine (endAlike_of_eq key).bind fun key _ same => ?_
  subst same
  refine (endAlike_of_eq arguments).bind fun values _ same => ?_
  subst same
  rw [alike.groups]
  rcases other.groups.add key values with ⟨⟨e⟩ | _, groups⟩
  · exact .error e
  · exact .ok ⟨rfl, .cons ⟨rfl, agree⟩ alike.rows⟩

/-- The first scope of a key, or the one in its place, is found at the same place. -/
theorem lookup_alike {rows rows' : List (Record × Scope)}
    (alike : List.Forall₂ (fun a b => a.1 = b.1 ∧ Scope.AgreeOn c.Mentions a.2 b.2) rows rows') (key : Record)
    {s t : Scope} (agree : s.AgreeOn c.Mentions t) :
    ((rows.lookup key).getD s).AgreeOn c.Mentions ((rows'.lookup key).getD t) := by
  induction alike with
  | nil => exact agree
  | @cons a b _ _ first _ ih =>
    rw [List.lookup_cons, List.lookup_cons, first.1]
    cases key == b.1 with
    | false => exact ih
    | true => exact first.2

/-- Where there is no row to read, a name is NULL if it has a column. -/
theorem get?_nulls (header : List Column) (name : String) :
    (Scope.nulls header).get? name = (columnType? header name).map fun _ => .null := by
  induction header with
  | nil => rfl
  | cons first rest ih =>
    show ((first.name, Value.null) :: (Scope.nulls rest).bindings).lookup name = _
    rw [lookup_entry]
    unfold columnType? at ih ⊢
    rw [List.find?_cons]
    by_cases same : name = first.name
    · simp [same]
    · have skipped : (first.name == name) = false := by simpa using Ne.symm same
      rw [if_neg same, skipped]
      exact ih

variable {source source' : List Column}
  (agree : ∀ name, c.Mentions name → columnType? source name = columnType? source' name)

include agree

theorem projectGroups_congr (alike : c.Alike one other) : c.projectGroups source one = c.projectGroups source' other := by
  have nulls : (Scope.nulls source).AgreeOn c.Mentions (Scope.nulls source') := by
    intro name occurs
    rw [get?_nulls, get?_nulls, agree name occurs]
  have folded : EndAlike (FoldedAlike c)
      (one.foldlM (c.foldRow c.calls) ⟨Groups.empty (functionsOf c.calls), []⟩)
      (other.foldlM (c.foldRow c.calls) ⟨Groups.empty (functionsOf c.calls), []⟩) := by
    refine EndAlike.foldlM (fun m n s t folded agree => ?_) alike ⟨rfl, .nil⟩
    exact foldRow_alike (fun _ member => member) folded agree
  unfold Clauses.projectGroups
  simp only [functions_found]
  refine folded.bind_eq fun m n ends => ?_
  simp only [ends.groups]
  refine mapM_congr fun group _ => project_congr ?_ _
  exact lookup_alike (List.rel_reverse ends.rows) group.1 nulls

theorem rows_congr (alike : c.Alike one other) : c.rows source one = c.rows source' other := by
  have each : one.map (c.project []) = other.map (c.project []) := by
    induction alike with
    | nil => rfl
    | cons first _ ih => rw [List.map_cons, List.map_cons, project_congr first, ih]
  unfold Clauses.rows
  rw [projectGroups_congr agree alike, mapM_of_map each]

/-- A select over two sources that agree on its names has one result. -/
theorem run_congr (strict : Bool) (alike : c.Alike one other) : c.run strict source one = c.run strict source' other := by
  have read : ∀ columns : List Column, (do
      let passing ← c.passing one
      let rows ← c.rows source passing
      .ok ⟨columns, (c.sorted rows).map Row.record⟩ : Except Error Stream) = (do
      let passing ← c.passing other
      let rows ← c.rows source' passing
      .ok ⟨columns, (c.sorted rows).map Row.record⟩) := fun columns =>
    (passing_alike alike).bind_eq fun kept kept' alike => by rw [rows_congr agree alike]
  unfold Clauses.run
  rw [header_congr agree, checkTypes_congr agree]
  refine bind_congr fun columns => ?_
  cases strict with
  | false => exact read columns
  | true => exact bind_congr fun _ => read columns

end Stages

/-! ## Two sources -/

/-- Two streams agree on some names. A name has no column in both, or its first columns have one type;
    and there are as many records, where at each place the name has one value in both, or none. -/
structure Stream.AgreeOn (read : String → Prop) (s t : Stream) : Prop where
  types : ∀ name, read name → columnType? s.header name = columnType? t.header name
  records : List.Forall₂
    (fun record record' => (Scope.ofRecord s.header record).AgreeOn read (Scope.ofRecord t.header record'))
    s.records t.records

/-- A select has one result over any two sources that agree on the names in its clauses, whatever
    other columns they have, in which order, and how often. -/
theorem eval_pruned {checks : Checks} {tables : Tables} {c : Clauses} {one other : Query} {s t : Stream}
    (first : one.eval checks tables = .ok s) (second : other.eval checks tables = .ok t)
    (agree : s.AgreeOn c.Mentions t) :
    (Query.select c (some one)).eval checks tables = (Query.select c (some other)).eval checks tables := by
  have scopes : c.Alike s.scopes t.scopes := by
    rw [Stream.scopes, Stream.scopes, Clauses.Alike, List.forall₂_map_left_iff, List.forall₂_map_right_iff]
    exact agree.records
  have source : ∀ {q : Query} {read : Stream}, q.eval checks tables = .ok read →
      (Query.select c (some q)).eval checks tables = c.run checks.types read.header read.scopes := by
    intro q read evaluated
    rw [Query.eval, Query.evalSource, evaluated]
    rfl
  rw [source first, source second]
  exact run_congr agree.types checks.types scopes

/-- The theorem at a table and at a select of two of its columns, in another order and one of them
    twice: for groups of rows, and where no row is left and the columns read NULL. -/
theorem eval_pruned_reordered :
    let tables : Tables := fun _ => .ok ⟨[⟨"j", .bool⟩, ⟨"k", .int⟩, ⟨"n", .int⟩],
      [[.null, .int 2, .int 5], [.bool true, .int 1, .int 9], [.bool false, .int 2, .int 1]]⟩
    let one : Query := .table "t"
    let other : Query := .select ⟨[.var "n", .lit .null, .var "k", .var "n"], none, none, none⟩ (some one)
    let s : Stream := ⟨[⟨"j", .bool⟩, ⟨"k", .int⟩, ⟨"n", .int⟩],
      [[.null, .int 2, .int 5], [.bool true, .int 1, .int 9], [.bool false, .int 2, .int 1]]⟩
    let t : Stream := ⟨[⟨"n", .int⟩, ⟨"literal", .unknown⟩, ⟨"k", .int⟩, ⟨"n", .int⟩],
      [[.int 5, .null, .int 2, .int 5], [.int 9, .null, .int 1, .int 9], [.int 1, .null, .int 2, .int 1]]⟩
    let c (least : Int) (keys : Option (List Expr)) : Clauses :=
      ⟨[.call .sum (.var "n"), .var "k"], some (.binary (.compare .gt) (.var "n") (.lit (.int least))), keys, none⟩
    one.eval ⟨true, true⟩ tables = .ok s ∧ other.eval ⟨true, true⟩ tables = .ok t ∧
      (∀ least keys, keys = none ∨ keys = some [.var "k"] → s.AgreeOn (c least keys).Mentions t) ∧
      (Query.select (c 0 (some [.var "k"])) (some one)).eval ⟨true, true⟩ tables =
        .ok ⟨[⟨"sum", .int⟩, ⟨"k", .int⟩], [[.int 9, .int 1], [.int 6, .int 2]]⟩ ∧
      (Query.select (c 0 (some [.var "k"])) (some other)).eval ⟨true, true⟩ tables =
        .ok ⟨[⟨"sum", .int⟩, ⟨"k", .int⟩], [[.int 9, .int 1], [.int 6, .int 2]]⟩ ∧
      (Query.select (c 9 none) (some other)).eval ⟨true, true⟩ tables =
        .ok ⟨[⟨"sum", .int⟩, ⟨"k", .int⟩], [[.int 0, .null]]⟩ := by
  intro tables one other s t c
  have first : one.eval ⟨true, true⟩ tables = .ok s := by decide +kernel
  have second : other.eval ⟨true, true⟩ tables = .ok t := by decide +kernel
  have named : ∀ least keys, keys = none ∨ keys = some [.var "k"] →
      ∀ name, (c least keys).Mentions name → name = "k" ∨ name = "n" := by
    intro least keys either name occurs
    have inside : .var name ∈ (c least keys).expressions.flatMap Expr.nodes := List.mem_flatMap.mpr occurs
    rcases either with rfl | rfl
    · have found : name = "n" ∨ name = "k" ∨ name = "n" := by
        simpa [c, Clauses.expressions, Clauses.groupKeys, Clauses.sortKeys, Expr.nodes] using inside
      exact found.elim .inr id
    · have found : name = "n" ∨ name = "k" ∨ name = "n" ∨ name = "k" := by
        simpa [c, Clauses.expressions, Clauses.groupKeys, Clauses.sortKeys, Expr.nodes] using inside
      exact found.elim .inr (Or.elim · .inl Or.symm)
  have agree : ∀ least keys, keys = none ∨ keys = some [.var "k"] → s.AgreeOn (c least keys).Mentions t := by
    intro least keys either
    refine ⟨fun name occurs => ?_, .cons (fun name occurs => ?_) (.cons (fun name occurs => ?_)
      (.cons (fun name occurs => ?_) .nil))⟩ <;> rcases named least keys either name occurs with rfl | rfl <;> rfl
  have grouped : (Query.select (c 0 (some [.var "k"])) (some one)).eval ⟨true, true⟩ tables =
      .ok ⟨[⟨"sum", .int⟩, ⟨"k", .int⟩], [[.int 9, .int 1], [.int 6, .int 2]]⟩ := by decide +kernel
  have whole : (Query.select (c 9 none) (some one)).eval ⟨true, true⟩ tables =
      .ok ⟨[⟨"sum", .int⟩, ⟨"k", .int⟩], [[.int 0, .null]]⟩ := by decide +kernel
  refine ⟨first, second, agree, grouped, ?_, ?_⟩
  · exact (eval_pruned first second (agree 0 _ (.inr rfl))).symm.trans grouped
  · exact (eval_pruned first second (agree 9 _ (.inl rfl))).symm.trans whole

end StreamQuery
