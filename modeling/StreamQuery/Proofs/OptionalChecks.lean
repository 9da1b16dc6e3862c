import StreamQuery.Proofs.Outcome
import StreamQuery.Query.Eval

/-!
# What the optional checks change

The optional checks only refuse: a query results in the same with them and without, or they end
it with an error of their own kind. Two runs of the evaluator are compared step by step. As long
as no check has refused, both have the same intermediate results, so the first error of the
query itself is the same in both.
-/

namespace StreamQuery

/-- An error that says of a type or a value that it is not of the type that is required. -/
def Error.IsTypeMismatch (e : Error) : Prop := ∃ required found, e = .typeMismatch required found

/-- An error that says the same of a type, a value or a width. -/
def Error.IsMismatch (e : Error) : Prop :=
  e.IsTypeMismatch ∨ ∃ expected found, e = .arityMismatch expected found

/-- The outcome of a computation with checks and of the same without: they are equal, or the
    checks refuse with an error of the given kind. -/
def Restricts {α : Type} (refusal : Error → Prop) (checked unchecked : Except Error α) : Prop :=
  checked = unchecked ∨ ∃ e, checked = .error e ∧ refusal e

/-! ## Comparing computations step by step -/

section Steps

variable {α β : Type} {refusal : Error → Prop}

theorem Restricts.refl (outcome : Except Error α) : Restricts refusal outcome outcome := .inl rfl

theorem restricts_error {e : Error} (refused : refusal e) (unchecked : Except Error α) :
    Restricts refusal (.error e) unchecked := .inr ⟨e, rfl, refused⟩

/-- Where the first steps agree the next ones are compared; where the first is refused the whole
    is. -/
theorem Restricts.bind {checked unchecked : Except Error α} {one other : α → Except Error β}
    (first : Restricts refusal checked unchecked) (next : ∀ a, Restricts refusal (one a) (other a)) :
    Restricts refusal (checked >>= one) (unchecked >>= other) := by
  rcases first with rfl | ⟨e, rfl, refused⟩
  · cases checked with
    | error e => exact .refl _
    | ok a => exact next a
  · exact restricts_error refused _

theorem Restricts.mapM {one other : α → Except Error β} (each : ∀ a, Restricts refusal (one a) (other a))
    (l : List α) : Restricts refusal (l.mapM one) (l.mapM other) := by
  induction l with
  | nil => exact .refl _
  | cons a rest ih =>
    rw [List.mapM_cons, List.mapM_cons]
    exact (each a).bind fun _ => ih.bind fun _ => .refl _

/-- A first step that the other run does not make, because its result is known. -/
theorem Restricts.after {a : α} {first : Except Error α} {next : α → Except Error β} {unchecked : Except Error β}
    (known : Restricts refusal first (.ok a)) (rest : Restricts refusal (next a) unchecked) :
    Restricts refusal (first >>= next) unchecked := by
  rcases known with rfl | ⟨e, rfl, refused⟩
  · exact rest
  · exact restricts_error refused _

/-- Checks in a row refuse only as each of them does. -/
theorem restricts_forM {check : α → Except Error Unit} (each : ∀ a, Restricts refusal (check a) (.ok ()))
    (l : List α) : Restricts refusal (l.forM check) (.ok ()) := by
  induction l with
  | nil => exact .refl _
  | cons a rest ih =>
    have both : Restricts refusal (check a >>= fun _ => rest.forM check) (.ok ()) := (each a).after ih
    exact both

theorem Restricts.weaken {narrow wide : Error → Prop} {checked unchecked : Except Error α}
    (restricts : Restricts narrow checked unchecked) (wider : ∀ e, narrow e → wide e) :
    Restricts wide checked unchecked :=
  restricts.imp id fun ⟨e, failed, refused⟩ => ⟨e, failed, wider e refused⟩

/-- A check that one run makes whenever the other does. -/
theorem restricts_of_more (run : Bool → Except Error α) (strict : Restricts refusal (run true) (run false))
    {one other : Bool} (more : other = true → one = true) : Restricts refusal (run one) (run other) := by
  cases one with
  | true =>
    cases other with
    | true => exact .refl _
    | false => exact strict
  | false =>
    cases other with
    | true => cases more rfl
    | false => exact .refl _

end Steps

/-! ## Types -/

/-- The check that types fit refuses only for a type. -/
theorem requireType_restricts (required : DataType) (reason : Requirement) (t : DataType) :
    Restricts Error.IsTypeMismatch (requireType true required reason t) (.ok ()) := by
  unfold requireType
  split
  · exact restricts_error ⟨_, _, rfl⟩ _
  · exact .refl _

theorem mergeBranch_restricts (soFar branch : DataType) :
    Restricts Error.IsTypeMismatch (mergeBranch true soFar branch) (mergeBranch false soFar branch) := by
  unfold mergeBranch
  by_cases unknown : soFar = .unknown
  · rw [if_pos unknown, if_pos unknown]
    exact .refl _
  · rw [if_neg unknown, if_neg unknown]
    exact (requireType_restricts _ _ _).bind fun _ => .refl _

/-- A type rule that refuses only for a type: the lenient check goes on with the type that the
    strict one finds, or the strict one refuses. -/
theorem checkedType_restricts {outcome : Except Error DataType} (fallback : DataType)
    (refuses : ∀ e, outcome = .error e → e.IsTypeMismatch) :
    Restricts Error.IsTypeMismatch (checkedType true outcome fallback) (checkedType false outcome fallback) := by
  cases outcome with
  | ok t => exact .refl _
  | error e => exact restricts_error (refuses e rfl) _

theorem mergeBranch_lenient (soFar branch : DataType) : ∃ t, mergeBranch false soFar branch = .ok t := by
  unfold mergeBranch
  by_cases unknown : soFar = .unknown
  · exact ⟨branch, if_pos unknown⟩
  · exact ⟨soFar, if_neg unknown⟩

theorem checkedType_lenient (outcome : Except Error DataType) (fallback : DataType) :
    ∃ t, checkedType false outcome fallback = .ok t := by
  cases outcome with
  | ok t => exact ⟨t, rfl⟩
  | error _ => exact ⟨fallback, rfl⟩

theorem negationType_error {t : DataType} {e : Error} (refused : negationType t = .error e) :
    e.IsTypeMismatch := by
  unfold negationType at refused
  split at refused
  · cases refused
  · cases refused
    exact ⟨_, _, rfl⟩

theorem operatorType_error {op : BinaryOp} {s t : DataType} {e : Error} (refused : op.type s t = .error e) :
    e.IsTypeMismatch := by
  cases op with
  | arith op =>
    simp only [BinaryOp.type, ArithOp.type] at refused
    split at refused
    · cases refused
    · cases refused
      exact ⟨_, _, rfl⟩
  | compare op =>
    simp only [BinaryOp.type, CompareOp.type] at refused
    split at refused
    · cases refused
    · cases refused
      exact ⟨_, _, rfl⟩

mutual

/-- An expression has the type that the strict check finds in the lenient one too. -/
theorem infer_restricts (header : List Column) :
    ∀ e : Expr, Restricts Error.IsTypeMismatch (e.infer true header) (e.infer false header)
  | .lit _ => .refl _
  | .var _ => .refl _
  | .rename inner _ => infer_restricts header inner
  | .not operand => by
    unfold Expr.infer
    exact (infer_restricts header operand).bind fun _ => checkedType_restricts _ fun _ => negationType_error
  | .binary op left right => by
    unfold Expr.infer
    exact (infer_restricts header left).bind fun _ => (infer_restricts header right).bind fun _ =>
      checkedType_restricts _ fun _ => operatorType_error
  | .case arms => inferArms_restricts header arms .unknown
  | .call kind argument => by
    unfold Expr.infer
    rw [kind.function_eq]
    exact (infer_restricts header argument).bind fun _ => (requireType_restricts _ _ _).bind fun _ => .refl _

theorem inferArms_restricts (header : List Column) : ∀ (arms : Arms) (soFar : DataType),
    Restricts Error.IsTypeMismatch (arms.infer true header soFar) (arms.infer false header soFar)
  | .done, _ => .refl _
  | .otherwise result, soFar => by
    unfold Arms.infer
    exact (infer_restricts header result).bind fun _ => mergeBranch_restricts _ _
  | .when condition result rest, soFar => by
    unfold Arms.infer
    refine (infer_restricts header condition).bind fun _ => (requireType_restricts _ _ _).bind fun _ => ?_
    exact (infer_restricts header result).bind fun _ => (mergeBranch_restricts _ _).bind fun merged =>
      inferArms_restricts header rest merged

end

mutual

/-- The lenient check finds a type for every expression. -/
theorem infer_lenient (header : List Column) : ∀ e : Expr, ∃ t, e.infer false header = .ok t
  | .lit value => ⟨value.type, rfl⟩
  | .var name => ⟨columnType header name, rfl⟩
  | .rename inner _ => infer_lenient header inner
  | .not operand => by
    obtain ⟨t, inner⟩ := infer_lenient header operand
    refine (checkedType_lenient (negationType t) .bool).imp fun s checked => ?_
    exact bind_eq_ok.mpr ⟨t, inner, checked⟩
  | .binary op left right => by
    obtain ⟨s, first⟩ := infer_lenient header left
    obtain ⟨t, second⟩ := infer_lenient header right
    refine (checkedType_lenient (op.type s t) op.resultType).imp fun u checked => ?_
    exact bind_eq_ok.mpr ⟨s, first, bind_eq_ok.mpr ⟨t, second, checked⟩⟩
  | .case arms => inferArms_lenient header arms .unknown
  | .call kind argument => by
    obtain ⟨t, inner⟩ := infer_lenient header argument
    refine ⟨kind.builtin.resultType, ?_⟩
    unfold Expr.infer
    exact bind_eq_ok.mpr ⟨_, kind.function_eq, bind_eq_ok.mpr ⟨t, inner, rfl⟩⟩

theorem inferArms_lenient (header : List Column) :
    ∀ (arms : Arms) (soFar : DataType), ∃ t, arms.infer false header soFar = .ok t
  | .done, soFar => ⟨soFar, rfl⟩
  | .otherwise result, soFar => by
    obtain ⟨t, inner⟩ := infer_lenient header result
    obtain ⟨merged, both⟩ := mergeBranch_lenient soFar t
    exact ⟨merged, bind_eq_ok.mpr ⟨t, inner, both⟩⟩
  | .when condition result rest, soFar => by
    obtain ⟨c, first⟩ := infer_lenient header condition
    obtain ⟨t, second⟩ := infer_lenient header result
    obtain ⟨merged, both⟩ := mergeBranch_lenient soFar t
    obtain ⟨u, others⟩ := inferArms_lenient header rest merged
    exact ⟨u, bind_eq_ok.mpr ⟨c, first, bind_eq_ok.mpr ⟨(), rfl, bind_eq_ok.mpr ⟨t, second,
      bind_eq_ok.mpr ⟨merged, both, others⟩⟩⟩⟩⟩

end

theorem checkExpr_restricts (source : List Column) (e : Expr) :
    Restricts Error.IsTypeMismatch (Clauses.checkExpr source e) (.ok ()) := by
  obtain ⟨t, found⟩ := infer_lenient source e
  have strict := infer_restricts source e
  rw [found] at strict
  have checked : Clauses.checkExpr source e = (e.infer true source >>= fun _ => .ok ()) := rfl
  rw [checked]
  exact strict.after (.refl _)

/-! ## Queries -/

theorem header_restricts (c : Clauses) (source : List Column) :
    Restricts Error.IsTypeMismatch (c.header true source) (c.header false source) :=
  Restricts.mapM (fun e => (infer_restricts source e).bind fun _ => .refl _) c.projection

theorem checkFilter_restricts (c : Clauses) (source : List Column) :
    Restricts Error.IsTypeMismatch (c.checkFilter source) (.ok ()) := by
  unfold Clauses.checkFilter
  cases c.filter with
  | none => exact .refl _
  | some condition =>
    obtain ⟨t, found⟩ := infer_lenient source condition
    have strict := infer_restricts source condition
    rw [found] at strict
    exact strict.after (requireType_restricts _ _ _)

theorem checkTypes_restricts (c : Clauses) (source : List Column) :
    Restricts Error.IsTypeMismatch (c.checkTypes source) (.ok ()) := by
  have keys : Restricts Error.IsTypeMismatch
      (c.groupKeys.forM (Clauses.checkExpr source) >>= fun _ => c.sortKeys.forM (Clauses.checkExpr source)) (.ok ()) :=
    (restricts_forM (checkExpr_restricts source) _).after (restricts_forM (checkExpr_restricts source) _)
  exact (checkFilter_restricts c source).after keys

/-- The rows of a select are the same with and without the check of types. -/
theorem run_restricts (c : Clauses) (source : List Column) (scopes : List Scope) :
    Restricts Error.IsTypeMismatch (c.run true source scopes) (c.run false source scopes) := by
  unfold Clauses.run
  refine (header_restricts c source).bind fun header => ?_
  exact (checkTypes_restricts c source).after (.refl _)

theorem checkValues_restricts : ∀ (header : List Column) (record : Record),
    Restricts Error.IsTypeMismatch (checkValues header record) (.ok ())
  | c :: header, v :: record => by
    have here : Restricts Error.IsTypeMismatch (c.check v) (.ok ()) := by
      unfold Column.check
      split
      · exact .refl _
      · exact restricts_error ⟨_, _, rfl⟩ _
    exact here.after (checkValues_restricts header record)
  | [], _ => .refl _
  | _ :: _, [] => .refl _

/-- A table is refused for the type of a value or for the width of a record. -/
theorem check_restricts (s : Stream) : Restricts Error.IsMismatch s.check (.ok ()) := by
  refine restricts_forM (fun record => ?_) s.records
  unfold checkRecord
  split
  · exact (checkValues_restricts s.header record).weaken fun _ => .inl
  · exact restricts_error (.inr ⟨_, _, rfl⟩) _

theorem table_restricts {one other : Checks} (more : other.sources = true → one.sources = true) (tables : Tables)
    (name : String) : Restricts Error.IsMismatch (one.table tables name) (other.table tables name) := by
  refine (Restricts.refl (tables name)).bind fun s => ?_
  exact restricts_of_more (fun sources => if sources then s.check >>= fun _ => .ok s else .ok s)
    ((check_restricts s).after (.refl _)) more

section Evaluation

variable {refusal : Error → Prop} {one other : Checks} {tables : Tables}

/-- What two sets of checks make of every query, from what they make of its tables and selects. -/
structure Restricted (refusal : Error → Prop) (one other : Checks) (tables : Tables) : Prop where
  table : ∀ name, Restricts refusal (one.table tables name) (other.table tables name)
  run : ∀ (c : Clauses) (source : List Column) (scopes : List Scope),
    Restricts refusal (c.run one.types source scopes) (c.run other.types source scopes)

mutual

theorem Restricted.eval (parts : Restricted refusal one other tables) :
    ∀ q : Query, Restricts refusal (q.eval one tables) (q.eval other tables)
  | .table name => parts.table name
  | .select clauses source => by
    rw [Query.eval, Query.eval]
    exact (parts.evalSource source).bind fun (header, scopes) => parts.run clauses header scopes
  | .unionAll queries => by
    rw [Query.eval, Query.eval]
    exact (parts.evalAll queries).bind fun _ => .refl _
  | .crossJoin queries => by
    rw [Query.eval, Query.eval]
    exact (parts.evalAll queries).bind fun _ => .refl _

theorem Restricted.evalAll (parts : Restricted refusal one other tables) :
    ∀ queries : List Query, Restricts refusal (Query.evalAll one tables queries) (Query.evalAll other tables queries)
  | [] => .refl _
  | q :: rest => by
    rw [Query.evalAll, Query.evalAll]
    exact (parts.eval q).bind fun _ => (parts.evalAll rest).bind fun _ => .refl _

theorem Restricted.evalSource (parts : Restricted refusal one other tables) :
    ∀ source : Option Query, Restricts refusal (Query.evalSource one tables source) (Query.evalSource other tables source)
  | none => .refl _
  | some q => by
    rw [Query.evalSource, Query.evalSource]
    exact (parts.eval q).bind fun _ => .refl _

end

end Evaluation

/-- More checks only refuse. With more of the optional checks a query has the result that it has
    with fewer, the same stream or the same error, or it ends with a mismatch of types or of
    widths; where only the check of types is added, with one of types. -/
theorem eval_more_checks {one other : Checks} (types : other.types = true → one.types = true)
    (sources : other.sources = true → one.sources = true) (tables : Tables) (q : Query) :
    Restricts Error.IsMismatch (q.eval one tables) (q.eval other tables) ∧
      (one.sources = other.sources →
        Restricts Error.IsTypeMismatch (q.eval one tables) (q.eval other tables)) := by
  have run : ∀ (c : Clauses) (source : List Column) (scopes : List Scope),
      Restricts Error.IsTypeMismatch (c.run one.types source scopes) (c.run other.types source scopes) :=
    fun c source scopes => restricts_of_more (c.run · source scopes) (run_restricts c source scopes) types
  refine ⟨Restricted.eval ⟨table_restricts sources tables, fun c source scopes => ?_⟩ q, fun same => ?_⟩
  · exact (run c source scopes).weaken fun _ => .inl
  · refine Restricted.eval ⟨fun name => ?_, run⟩ q
    unfold Checks.table
    rw [same]
    exact .refl _

/-- The theorem at a union whose first part has an operand of the wrong type that no row reaches. -/
theorem eval_more_checks_unreached :
    let one : Checks := ⟨true, true⟩
    let other : Checks := ⟨false, true⟩
    let empty : Query := .select ⟨[.rename (.lit (.int 1)) "x"], some (.lit (.bool false)), none, none⟩ none
    let mistyped : Query :=
      .select ⟨[.binary (.arith .add) (.var "x") (.lit (.bool true))], none, none, none⟩ (some empty)
    let tables : Tables := fun _ => .ok ⟨[⟨"x", .int⟩], [[.int 7]]⟩
    let q : Query := .unionAll [mistyped, .table "t"]
    (other.types = true → one.types = true) ∧ (other.sources = true → one.sources = true) ∧
      one.sources = other.sources ∧ q.eval other tables = .ok ⟨[⟨"expression", .int⟩], [[.int 7]]⟩ ∧
      ∃ required found, q.eval one tables = .error (.typeMismatch required found) := by
  intro one other empty mistyped tables q
  have lenient : q.eval other tables = .ok ⟨[⟨"expression", .int⟩], [[.int 7]]⟩ := rfl
  have differ : q.eval one tables ≠ q.eval other tables := by rw [lenient]; exact nofun
  have types : other.types = true → one.types = true := fun _ => rfl
  have sources : other.sources = true → one.sources = true := fun _ => rfl
  refine ⟨types, sources, rfl, lenient, ?_⟩
  obtain ⟨_, failed, required, found, rfl⟩ := ((eval_more_checks types sources tables q).2 rfl).resolve_left differ
  exact ⟨required, found, failed⟩

end StreamQuery
