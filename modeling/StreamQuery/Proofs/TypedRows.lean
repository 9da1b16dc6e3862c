import StreamQuery.Proofs.Calls
import StreamQuery.Proofs.Groups
import StreamQuery.Proofs.Typing
import StreamQuery.Query.Eval

/-!
# Rows of a checked select

A select whose clauses the strict check accepts runs into no type error in its rows: not in WHERE,
not in the keys of its groups, not in folding and not in the projection. The sort keys are the
exception. They are checked against the columns of the source, and evaluated in a scope where the
new names of the projection come first. Where they are accepted in the header of that scope too
(`bindColumns`), no row runs into a type error at all.
-/

namespace StreamQuery

/-! ## Outcomes without a type error -/

/-- An outcome that is no type error, and whose value, if it has one, has the property. A sound
    value (`Sound`) is one that is safe with what its type promises. -/
def Safe {α : Type} (p : α → Prop) (outcome : Except Error α) : Prop :=
  (∀ required found, outcome ≠ .error (.typeMismatch required found)) ∧ ∀ a, outcome = .ok a → p a

section Outcomes

variable {α β : Type}

theorem safe_ok {p : α → Prop} {a : α} (h : p a) : Safe p (.ok a) :=
  ⟨nofun, fun b same => by cases same; exact h⟩

theorem safe_invalid {p : α → Prop} (cause : Invalid) : Safe p (.error (.invalidValue cause)) :=
  ⟨nofun, nofun⟩

theorem Safe.bind {p : α → Prop} {q : β → Prop} {outcome : Except Error α} {next : α → Except Error β}
    (first : Safe p outcome) (rest : ∀ a, p a → Safe q (next a)) : Safe q (outcome >>= next) := by
  cases outcome with
  | ok a => exact rest a (first.2 a rfl)
  | error e =>
    refine ⟨fun required found same => ?_, nofun⟩
    exact first.1 required found (by cases same; rfl)

/-- Without a type error anywhere in a list there is none in the whole, and every result is that
    of its place. -/
theorem safe_mapM {r : α → β → Prop} {f : α → Except Error β} {l : List α} (each : ∀ a ∈ l, Safe (r a) (f a)) :
    Safe (List.Forall₂ r l) (l.mapM f) := by
  induction l with
  | nil => exact safe_ok .nil
  | cons a rest ih =>
    rw [List.forall_mem_cons] at each
    rw [List.mapM_cons]
    refine each.1.bind fun b here => (ih each.2).bind fun bs later => ?_
    exact safe_ok (.cons here later)

/-- If only the absence of type errors matters, any property of the values is as good as another. -/
theorem Safe.forget {p : α → Prop} {outcome : Except Error α} (h : Safe p outcome) : Safe (fun _ => True) outcome :=
  ⟨h.1, fun _ _ => trivial⟩

theorem safe_mapM_any {f : α → Except Error β} {l : List α} (each : ∀ a ∈ l, Safe (fun _ => True) (f a)) :
    Safe (fun _ => True) (l.mapM f) :=
  (safe_mapM (r := fun _ _ => True) each).forget

/-- An invariant of every step is one of the run. -/
theorem safe_foldlM {σ : Type} {invariant : σ → Prop} {f : σ → α → Except Error σ} {l : List α}
    (step : ∀ s, ∀ a ∈ l, invariant s → Safe invariant (f s a)) {s : σ} (start : invariant s) :
    Safe invariant (l.foldlM f s) := by
  induction l generalizing s with
  | nil => exact safe_ok start
  | cons a rest ih =>
    rw [List.foldlM_cons]
    refine (step s a List.mem_cons_self start).bind fun t here => ?_
    exact ih (fun s b member => step s b (List.mem_cons_of_mem _ member)) here

end Outcomes

/-! ## Scopes -/

theorem read_nulls {header : List Column} {name : String} {v : Value}
    (bound : (Scope.nulls header).get? name = some v) : v = .null := by
  obtain ⟨before, after, split, _⟩ := List.lookup_eq_some_iff.mp bound
  have member : (name, v) ∈ header.map fun c => (c.name, Value.null) := by
    show (name, v) ∈ (Scope.nulls header).bindings
    simp [split]
  obtain ⟨c, _, same⟩ := List.mem_map.mp member
  exact (Prod.ext_iff.mp same).2.symm

theorem fits_nulls (header : List Column) : (Scope.nulls header).Fits header := by
  intro name v bound
  rw [read_nulls bound]
  exact holds_null _

/-- A name bound to a value of a type, and its column in front of the others. -/
theorem Scope.Fits.bind {header : List Column} {scope : Scope} (fits : scope.Fits header) {c : Column} {v : Value}
    (value : c.datatype.Holds v) : (scope.bind c.name v).Fits (c :: header) := by
  intro name w bound
  by_cases same : name = c.name
  · subst same
    have first : v = w := by simpa [Scope.bind, Scope.get?] using bound
    simpa [columnType, ← first] using value
  · have other : (name == c.name) = false := by simpa using same
    have later : scope.get? name = some w := by
      simpa [Scope.bind, Scope.get?, List.lookup_cons, other] using bound
    have type : columnType (c :: header) name = columnType header name := by
      simp [columnType, Ne.symm same]
    rw [type]
    exact fits name w later

/-- The columns that sort keys read: the items of a projection with a new name come before the
    columns of the source, the last of them first. -/
def bindColumns (source : List Column) : List Expr → List Column → List Column
  | .rename _ _ :: es, c :: columns => bindColumns (c :: source) es columns
  | _ :: es, _ :: columns => bindColumns source es columns
  | _, _ => source

/-- The scope of the sort keys fits those columns, if the projected values are of the types of
    theirs. -/
theorem fits_bindAliases {es : List Expr} {columns : List Column} {record : Record} {source : List Column}
    {scope : Scope} (fits : scope.Fits source)
    (names : List.Forall₂ (fun e c => Expr.columnName e = c.name) es columns)
    (values : List.Forall₂ (fun c v => c.datatype.Holds v) columns record) :
    (scope.bindAliases es record).Fits (bindColumns source es columns) := by
  induction names generalizing record source scope with
  | nil =>
    cases values
    exact fits
  | @cons e c es columns named _ ih =>
    cases values with
    | cons value values =>
      cases e with
      | rename inner name =>
        obtain rfl : name = c.name := named
        have bound := ih (fits.bind value) values
        exact bound
      | lit _ | var _ | not _ | binary _ _ _ | case _ | call _ _ =>
        have bound := ih fits values
        exact bound

/-- Values that pass the check of a record are of the types of their columns. -/
theorem accepts_of_checkValues {header : List Column} {record : Record} (checked : checkValues header record = .ok ()) :
    ∀ cell ∈ header.zip record, cell.1.datatype.accepts cell.2 = true := by
  induction header generalizing record with
  | nil => simp
  | cons c header ih =>
    cases record with
    | nil => simp
    | cons v record =>
      obtain ⟨_, here, later⟩ := bind_eq_ok.mp checked
      unfold Column.check at here
      split_ifs at here with accepted
      rw [List.zip_cons_cons, List.forall_mem_cons]
      exact ⟨accepted, ih later⟩

/-! ## Calls -/

/-- A call whose argument has the type that its function folds. -/
def Call.Typed (header : List Column) (call : Call) : Prop :=
  ∃ t, call.2.infer true header = .ok t ∧ t.compatible call.1.builtin.argumentType = true

mutual

theorem calls_typed {header : List Column} : ∀ {e : Expr} {t : DataType}, e.infer true header = .ok t →
    ∀ call ∈ e.outerCalls, Call.Typed header call
  | .lit _, _, _ => by simp [Expr.outerCalls]
  | .var _, _, _ => by simp [Expr.outerCalls]
  | .rename inner _, t, inferred => calls_typed (e := inner) inferred
  | .not operand, t, inferred => by
    obtain ⟨s, operandType, _⟩ := bind_eq_ok.mp inferred
    exact calls_typed (e := operand) operandType
  | .binary op left right, t, inferred => by
    obtain ⟨s, leftType, inferred⟩ := bind_eq_ok.mp inferred
    obtain ⟨u, rightType, _⟩ := bind_eq_ok.mp inferred
    exact List.forall_mem_append.mpr ⟨calls_typed (e := left) leftType, calls_typed (e := right) rightType⟩
  | .case arms, t, inferred =>
    show ∀ call ∈ arms.outerCalls, Call.Typed header call from armCalls_typed inferred
  | .call kind argument, t, inferred => by
    obtain ⟨f, found, inferred⟩ := bind_eq_ok.mp inferred
    obtain rfl := Except.ok.inj (found.symm.trans kind.function_eq)
    obtain ⟨s, argumentType, inferred⟩ := bind_eq_ok.mp inferred
    obtain ⟨_, required, _⟩ := bind_eq_ok.mp inferred
    intro call member
    obtain rfl := List.mem_singleton.mp member
    exact ⟨s, argumentType, requireType_strict required⟩

theorem armCalls_typed {header : List Column} : ∀ {arms : Arms} {soFar t : DataType},
    arms.infer true header soFar = .ok t → ∀ call ∈ arms.outerCalls, Call.Typed header call
  | .done, _, _, _ => by simp [Arms.outerCalls]
  | .otherwise result, soFar, t, inferred => by
    obtain ⟨s, resultType, _⟩ := bind_eq_ok.mp inferred
    exact calls_typed (e := result) resultType
  | .when condition result rest, soFar, t, inferred => by
    obtain ⟨c, conditionType, inferred⟩ := bind_eq_ok.mp inferred
    obtain ⟨_, _, inferred⟩ := bind_eq_ok.mp inferred
    obtain ⟨s, resultType, inferred⟩ := bind_eq_ok.mp inferred
    obtain ⟨merged, _, restType⟩ := bind_eq_ok.mp inferred
    exact List.forall_mem_append.mpr
      ⟨List.forall_mem_append.mpr ⟨calls_typed (e := condition) conditionType, calls_typed (e := result) resultType⟩,
        armCalls_typed restType⟩

end

theorem noResults_fit : Finished.Fits [] := by
  intro call v member
  cases member

/-- The argument of a typed call has a value that its function folds. -/
theorem safe_argument {header : List Column} {scope : Scope} (fits : scope.Fits header) {call : Call}
    (typed : call.Typed header) : Safe call.1.builtin.argumentType.Holds (call.2.eval scope) := by
  obtain ⟨t, inferred, compatible⟩ := typed
  have sound : Sound t (call.2.eval scope) := sound_evalWith fits noResults_fit inferred
  exact sound.weaken fun v h => holds_of_compatible (by cases call.1.builtin <;> nofun) compatible h

/-! ## Folding -/

/-- A state that a function has after values of its argument type: never NULL. -/
def Aggregate.IsState (f : Aggregate) (state : Value) : Prop := state.type = f.resultType

theorem isState_initial (f : Aggregate) : f.IsState f.initial := by
  cases f <;> rfl

theorem accepts_of_isState {f : Aggregate} {state : Value} (h : f.IsState state) :
    f.resultType.accepts state = true := by
  unfold DataType.accepts
  rw [show state.type = f.resultType from h]
  cases f <;> rfl

theorem safe_step {f : Aggregate} {v state : Value} (value : f.argumentType.Holds v) (h : f.IsState state) :
    Safe f.IsState (f.step v state) := by
  cases f with
  | boolOr =>
    cases state with
    | bool b =>
      rcases holds_bool value with rfl | ⟨a, rfl⟩
      · exact safe_ok h
      · exact safe_ok rfl
    | int _ | null => cases h
  | sum =>
    cases state with
    | int n =>
      rcases holds_int value with rfl | ⟨m, rfl⟩
      · exact safe_ok h
      · unfold Aggregate.step
        simp only
        split_ifs
        · exact safe_ok rfl
        · exact safe_invalid _
    | bool _ | null => cases h

/-- Stepping states runs into no type error, and where it succeeds there are states again. -/
theorem safe_stepStates {functions : List Aggregate} {values states : List Value}
    (typed : List.Forall₂ (fun f v => Aggregate.argumentType f |>.Holds v) functions values)
    (h : List.Forall₂ Aggregate.IsState functions states) :
    Safe (fun _ => List.Forall₂ Aggregate.IsState functions (Groups.stepStates functions values states).2)
      (Groups.stepStates functions values states).1 := by
  induction typed generalizing states with
  | nil =>
    cases h
    exact safe_ok .nil
  | @cons f v functions values value _ ih =>
    cases h with
    | @cons _ state _ states first later =>
      obtain ⟨noMismatch, stepped⟩ := safe_step value first
      unfold Groups.stepStates
      cases result : f.step v state with
      | error e =>
        rw [result] at noMismatch
        exact ⟨fun required found same => noMismatch required found (by cases same; rfl), nofun⟩
      | ok next =>
        obtain ⟨tailSafe, tailStates⟩ := ih later
        exact ⟨tailSafe, fun u ok => .cons (stepped next result) (tailStates u ok)⟩

namespace Groups

/-- Groups whose states are states of their functions. -/
structure Typed (g : Groups) : Prop where
  ascending : Ascending (g.entries.map Prod.fst)
  states : ∀ key states, (key, states) ∈ g.entries → List.Forall₂ Aggregate.IsState g.functions states

theorem typed_empty (functions : List Aggregate) : (empty functions).Typed where
  ascending := .nil
  states _ _ member := nomatch member

theorem typed_initialStates (g : Groups) : List.Forall₂ Aggregate.IsState g.functions g.initialStates := by
  unfold initialStates
  exact List.forall₂_map_right_iff.mpr (List.forall₂_same.mpr fun f _ => isState_initial f)

/-- Adding values of the argument types keeps the groups typed. -/
theorem safe_add {g : Groups} (typed : g.Typed) (key : Record) {values : List Value}
    (arguments : List.Forall₂ (fun f v => Aggregate.argumentType f |>.Holds v) g.functions values) :
    Safe (fun _ => (g.add key values).2.functions = g.functions ∧ (g.add key values).2.Typed) (g.add key values).1 := by
  obtain ⟨old, entry, answer, functions, ascending, replaces⟩ :=
    add_spec key typed.ascending arguments.length_eq.symm
  have before : List.Forall₂ Aggregate.IsState g.functions old := by
    rcases entry with member | ⟨_, rfl⟩
    · exact typed.states key old member
    · exact g.typed_initialStates
  obtain ⟨noMismatch, stepped⟩ := safe_stepStates arguments before
  rw [← answer] at noMismatch stepped
  refine ⟨noMismatch, fun u accepted => ⟨functions, ascending, fun k states member => ?_⟩⟩
  rw [functions]
  rcases (replaces k states).mp member with ⟨_, rfl⟩ | ⟨_, earlier⟩
  · exact stepped u accepted
  · exact typed.states k states earlier

end Groups

/-! ## Clauses -/

/-- What the strict check establishes of the clauses of a select: the projection has the columns of
    the result, the condition can be one, and every key has a type over the source. -/
structure Clauses.Checked (c : Clauses) (source columns : List Column) : Prop where
  projection : List.Forall₂ (fun e column => e.infer true source = .ok column.datatype ∧ e.columnName = column.name)
    c.projection columns
  condition : ∀ e, c.filter = some e → ∃ t, e.infer true source = .ok t ∧ t.compatible .bool = true
  groupKeys : ∀ e ∈ c.groupKeys, ∃ t, e.infer true source = .ok t
  sortKeys : ∀ e ∈ c.sortKeys, ∃ t, e.infer true source = .ok t

theorem infer_of_checkExpr {source : List Column} {e : Expr} (checked : Clauses.checkExpr source e = .ok ()) :
    ∃ t, e.infer true source = .ok t := by
  obtain ⟨t, inferred, _⟩ := map_eq_ok.mp checked
  exact ⟨t, inferred⟩

theorem checked_of_checkTypes {c : Clauses} {source columns : List Column}
    (projected : c.header true source = .ok columns) (checked : c.checkTypes source = .ok ()) :
    c.Checked source columns := by
  obtain ⟨_, condition, checked⟩ := bind_eq_ok.mp checked
  obtain ⟨_, groupKeys, sortKeys⟩ := bind_eq_ok.mp checked
  refine ⟨?_, fun e here => ?_, fun e member => ?_, fun e member => ?_⟩
  · refine (mapM_eq_ok.mp projected).imp fun e column inferred => ?_
    obtain ⟨t, type, same⟩ := bind_eq_ok.mp inferred
    cases same
    exact ⟨type, rfl⟩
  · unfold Clauses.checkFilter at condition
    rw [here] at condition
    obtain ⟨t, inferred, required⟩ := bind_eq_ok.mp condition
    exact ⟨t, inferred, requireType_strict required⟩
  · exact infer_of_checkExpr (forM_eq_ok.mp groupKeys e member)
  · exact infer_of_checkExpr (forM_eq_ok.mp sortKeys e member)

theorem Clauses.Checked.projected {c : Clauses} {source columns : List Column} (checked : c.Checked source columns) :
    ∀ e ∈ c.projection, ∃ t, e.infer true source = .ok t :=
  ((List.forall₂_and_left _ _).mp (checked.projection.imp fun _ column type => ⟨⟨column.datatype, type.1⟩, type⟩)).1

theorem Clauses.Checked.calls {c : Clauses} {source columns : List Column} (checked : c.Checked source columns) :
    ∀ call ∈ c.calls, Call.Typed source call := by
  intro call member
  obtain ⟨e, inside, outer⟩ := List.mem_flatMap.mp (mem_callsOf.mp member)
  have typed : ∃ t, e.infer true source = .ok t :=
    (List.mem_append.mp inside).elim (checked.projected e) (checked.sortKeys e)
  obtain ⟨t, inferred⟩ := typed
  exact calls_typed inferred call outer

/-! ## Rows that are kept and folded -/

theorem safe_eval {source : List Column} {scope : Scope} (fits : scope.Fits source) {e : Expr} {t : DataType}
    (inferred : e.infer true source = .ok t) : Safe t.Holds (e.eval scope) :=
  sound_evalWith fits noResults_fit inferred

theorem safe_filter {source : List Column} {condition : Expr} {t : DataType}
    (inferred : condition.infer true source = .ok t) (boolean : t.compatible .bool = true) {scopes : List Scope}
    (fits : ∀ scope ∈ scopes, scope.Fits source) :
    Safe (fun kept => ∀ scope ∈ kept, Scope.Fits source scope) (Scope.filter condition scopes) := by
  induction scopes with
  | nil => exact safe_ok (by simp)
  | cons scope rest ih =>
    rw [List.forall_mem_cons] at fits
    refine (safe_eval fits.1 inferred).bind fun v value => ?_
    obtain ⟨kept, satisfied⟩ := isSatisfied_ok boolean value
    rw [satisfied]
    refine (ih fits.2).bind fun others later => safe_ok ?_
    cases kept with
    | false => exact later
    | true => exact List.forall_mem_cons.mpr ⟨fits.1, later⟩

theorem safe_passing {c : Clauses} {source columns : List Column} (checked : c.Checked source columns)
    {scopes : List Scope} (fits : ∀ scope ∈ scopes, scope.Fits source) :
    Safe (fun kept => ∀ scope ∈ kept, Scope.Fits source scope) (c.passing scopes) := by
  unfold Clauses.passing
  cases here : c.filter with
  | none => exact safe_ok fits
  | some condition =>
    obtain ⟨t, inferred, boolean⟩ := checked.condition condition here
    exact safe_filter inferred boolean fits

/-- What folding keeps: groups that are typed, for the functions of the calls, and rows of the
    source. -/
structure Clauses.Folded.Typed (calls : List Call) (source : List Column) (folded : Clauses.Folded) : Prop where
  functions : folded.groups.functions = functionsOf calls
  groups : folded.groups.Typed
  rows : ∀ row ∈ folded.rows, row.2.Fits source

theorem safe_foldRow {c : Clauses} {source columns : List Column} (checked : c.Checked source columns)
    {scope : Scope} (fits : scope.Fits source) {folded : Clauses.Folded} (typed : folded.Typed c.calls source) :
    Safe (Clauses.Folded.Typed c.calls source) (c.foldRow c.calls folded scope) := by
  have keySafe : Safe (fun _ => True) (c.groupKeys.mapM (Expr.eval scope)) := by
    refine safe_mapM_any fun e member => ?_
    obtain ⟨t, inferred⟩ := checked.groupKeys e member
    exact (safe_eval fits inferred).forget
  refine keySafe.bind fun key _ => ?_
  refine (safe_mapM fun call member => safe_argument fits (checked.calls call member)).bind fun arguments values => ?_
  have widened : List.Forall₂ (fun f v => Aggregate.argumentType f |>.Holds v) folded.groups.functions arguments := by
    rw [typed.functions]
    exact List.forall₂_map_left_iff.mpr values
  have added := Groups.safe_add typed.groups key widened
  rcases result : folded.groups.add key arguments with ⟨outcome, groups⟩
  rw [result] at added
  cases outcome with
  | error e => exact ⟨fun required found same => added.1 required found (by cases same; rfl), nofun⟩
  | ok u =>
    obtain ⟨functions, groupsTyped⟩ := added.2 u rfl
    exact safe_ok ⟨functions.trans typed.functions, groupsTyped, List.forall_mem_cons.mpr ⟨fits, typed.rows⟩⟩

/-- Every result of typed groups has one state for each function; so has the one result of no
    rows. -/
theorem Groups.Typed.results {g : Groups} (typed : g.Typed) {key : Record} {values : List Value}
    (member : (key, values) ∈ g.results ∨ (key, values) ∈ g.resultsOfOne) :
    List.Forall₂ Aggregate.IsState g.functions values := by
  have ofEntry : (key, values) ∈ g.entries → List.Forall₂ Aggregate.IsState g.functions values :=
    typed.states key values
  rcases member with entry | one
  · exact ofEntry entry
  · unfold Groups.resultsOfOne at one
    split_ifs at one
    · cases List.mem_singleton.mp one
      exact g.typed_initialStates
    · exact ofEntry one

theorem finished_fits {calls : List Call} {values : List Value}
    (states : List.Forall₂ Aggregate.IsState (functionsOf calls) values) : Finished.Fits (calls.zip values) := by
  intro call v member
  have state := (List.forall₂_iff_zip.mp (List.forall₂_map_left_iff.mp states)).2 member
  exact accepts_of_isState state

/-! ## Projected rows -/

theorem holds_of_projection {source : List Column} {es : List Expr} {columns : List Column} {record : Record}
    (types : List.Forall₂ (fun e column => e.infer true source = .ok column.datatype ∧ e.columnName = column.name)
      es columns)
    (values : List.Forall₂ (fun e v => ∀ t, Expr.infer true source e = .ok t → t.Holds v) es record) :
    List.Forall₂ (fun column v => column.datatype.Holds v) columns record := by
  induction types generalizing record with
  | nil =>
    cases values
    exact .nil
  | cons type _ ih =>
    cases values with
    | cons value values => exact .cons (value _ type.1) (ih values)

/-- A row whose sort keys have a type where the new names come first has no type error. -/
theorem safe_project {c : Clauses} {source columns : List Column} (checked : c.Checked source columns)
    (sortable : ∀ e ∈ c.sortKeys, ∃ t, e.infer true (bindColumns source c.projection columns) = .ok t)
    {scope : Scope} (scopeFits : scope.Fits source) {finished : Finished} (finishedFits : finished.Fits) :
    Safe (fun _ => True) (c.project finished scope) := by
  have record : Safe (List.Forall₂ (fun e v => ∀ t, Expr.infer true source e = .ok t → t.Holds v) c.projection)
      (c.projection.mapM (Expr.evalWith scope finished)) := by
    refine safe_mapM fun e member => ?_
    obtain ⟨t, inferred⟩ := checked.projected e member
    refine ⟨(sound_evalWith scopeFits finishedFits inferred).1, fun v value t type => ?_⟩
    exact (sound_evalWith scopeFits finishedFits type).2 v value
  refine record.bind fun record values => ?_
  have keyScope : (scope.bindAliases c.projection record).Fits (bindColumns source c.projection columns) :=
    fits_bindAliases scopeFits (checked.projection.imp fun _ _ type => type.2)
      (holds_of_projection checked.projection values)
  have keys : Safe (fun _ => True) (c.sortKeys.mapM (Expr.evalWith (scope.bindAliases c.projection record) finished)) := by
    refine safe_mapM_any fun e member => ?_
    obtain ⟨t, inferred⟩ := sortable e member
    exact Safe.forget (sound_evalWith keyScope finishedFits inferred)
  exact keys.bind fun _ _ => safe_ok trivial

/-- The scope of a result is that of a folded row, or NULL everywhere. -/
theorem fits_lookup {source : List Column} {keyed : List (Record × Scope)}
    (fits : ∀ row ∈ keyed, row.2.Fits source) (key : Record) :
    ((keyed.lookup key).getD (Scope.nulls source)).Fits source := by
  cases found : keyed.lookup key with
  | none => exact fits_nulls source
  | some scope =>
    obtain ⟨before, after, split, _⟩ := List.lookup_eq_some_iff.mp found
    exact fits (key, scope) (by simp [split])

theorem safe_rows {c : Clauses} {source columns : List Column} (checked : c.Checked source columns)
    (sortable : ∀ e ∈ c.sortKeys, ∃ t, e.infer true (bindColumns source c.projection columns) = .ok t)
    {scopes : List Scope} (fits : ∀ scope ∈ scopes, scope.Fits source) :
    Safe (fun _ => True) (c.rows source scopes) := by
  unfold Clauses.rows
  split_ifs with grouped
  · unfold Clauses.projectGroups
    simp only [functions_found]
    have start : Clauses.Folded.Typed c.calls source ⟨Groups.empty (functionsOf c.calls), []⟩ :=
      ⟨rfl, Groups.typed_empty _, by simp⟩
    have folding := safe_foldlM (fun folded scope member typed => safe_foldRow checked (fits scope member) typed) start
    refine folding.bind fun folded typed => ?_
    refine safe_mapM_any fun result member => ?_
    have states : List.Forall₂ Aggregate.IsState folded.groups.functions result.2 := by
      split_ifs at member
      · exact typed.groups.results (.inl member)
      · exact typed.groups.results (.inr member)
    rw [typed.functions] at states
    have scopeFits := fits_lookup (fun row member => typed.rows row (List.mem_reverse.mp member)) result.1
    exact safe_project checked sortable scopeFits (finished_fits states)
  · exact safe_mapM_any fun scope member => safe_project checked sortable (fits scope member) noResults_fit

/-! ## Selects -/

/-- The rows of a stream that fits its header, with nothing but NULL in columns of unknown type. -/
theorem fits_scopes {s : Stream} (valid : s.check = .ok ())
    (unknown : ∀ record ∈ s.records, ∀ cell ∈ s.header.zip record, cell.1.datatype = .unknown → cell.2 = .null) :
    ∀ scope ∈ s.scopes, scope.Fits s.header := by
  intro scope member
  obtain ⟨record, inside, rfl⟩ := List.mem_map.mp member
  have fitting := forM_eq_ok.mp valid record inside
  unfold checkRecord at fitting
  split_ifs at fitting with width
  refine fits_ofRecord fun cell place => ⟨?_, unknown record inside cell place⟩
  exact accepts_of_checkValues fitting cell place

theorem run_of_checked {c : Clauses} {source columns : List Column} {scopes : List Scope}
    (projected : c.header true source = .ok columns) (checked : c.checkTypes source = .ok ()) :
    c.run true source scopes = (do
      let kept ← c.passing scopes
      let rows ← c.rows source kept
      .ok ⟨columns, (c.sorted rows).map Row.record⟩) :=
  Clauses.run_of_accepted projected (fun _ => checked) scopes

/-- The rows of a select that the strict check accepts run into no type error, if every sort key
    also has a type where the new names of the projection come before the columns of the source. -/
theorem run_strict_safe {c : Clauses} {s : Stream} {columns : List Column} (valid : s.check = .ok ())
    (unknown : ∀ record ∈ s.records, ∀ cell ∈ s.header.zip record, cell.1.datatype = .unknown → cell.2 = .null)
    (projected : c.header true s.header = .ok columns) (checked : c.checkTypes s.header = .ok ())
    (sortable : ∀ e ∈ c.sortKeys, ∃ t, e.infer true (bindColumns s.header c.projection columns) = .ok t)
    (required : Requirement) (found : Finding) :
    c.run true s.header s.scopes ≠ .error (.typeMismatch required found) := by
  have clauses := checked_of_checkTypes projected checked
  have run : Safe (fun _ => True) (c.run true s.header s.scopes) := by
    rw [run_of_checked projected checked]
    refine (safe_passing clauses (fits_scopes valid unknown)).bind fun kept fits => ?_
    exact (safe_rows clauses sortable fits).bind fun _ _ => safe_ok trivial
  exact run.1 required found

/-- The theorem at groups whose sort key reads a new name of another type than that of the column
    it hides. -/
theorem run_strict_safe_groups :
    let c : Clauses := ⟨[.rename (.call .sum (.var "n")) "k", .rename (.var "k") "n"],
      some (.not (.var "u")), some [.var "k"], some [(.binary (.compare .lt) (.var "k") (.lit (.int 3)), .descending)]⟩
    let s : Stream := ⟨[⟨"k", .unknown⟩, ⟨"n", .int⟩, ⟨"u", .bool⟩],
      [[.null, .int 1, .bool false], [.null, .int 4, .bool false], [.null, .int 2, .null]]⟩
    c.run true s.header s.scopes = .ok ⟨[⟨"k", .int⟩, ⟨"n", .unknown⟩], [[.int 5, .null]]⟩ ∧
      ∀ required found, c.run true s.header s.scopes ≠ .error (.typeMismatch required found) := by
  intro c s
  have projected : c.header true s.header = .ok [⟨"k", .int⟩, ⟨"n", .unknown⟩] := rfl
  refine ⟨by decide +kernel, run_strict_safe rfl (by decide) projected rfl ?_⟩
  intro e member
  cases List.mem_singleton.mp member
  exact ⟨.bool, rfl⟩

/-- Without that a checked select can run into a type error: the sort key has a type where the name
    is that of the column, and in the row it is the new name that is read. -/
theorem run_strict_hidden_column :
    let c : Clauses := ⟨[.rename (.lit (.bool true)) "x"], none, none,
      some [(.binary (.arith .add) (.var "x") (.lit (.int 1)), .ascending)]⟩
    let s : Stream := ⟨[⟨"x", .int⟩], [[.int 1]]⟩
    s.check = .ok () ∧
      (∀ record ∈ s.records, ∀ cell ∈ s.header.zip record, cell.1.datatype = .unknown → cell.2 = .null) ∧
      c.header true s.header = .ok [⟨"x", .bool⟩] ∧ c.checkTypes s.header = .ok () ∧
      c.run true s.header s.scopes =
        .error (.typeMismatch (.operands (.arith .add)) (.values (.bool true) (.int 1))) := by
  exact ⟨rfl, by decide, rfl, rfl, rfl⟩

end StreamQuery
