import StreamQuery.Proofs.Ordering
import StreamQuery.Proofs.TypedRows

/-!
# Values of results

The strict check finds a type for every column of a result, and the values of the column are of
that type: the result of a query fits its own header, as the check of a table asks it of the table.
There are two ways around it. The type `unknown` accepts every value, so that a column of that type
may hold anything, and it is compatible with every type: a CASE has the value of such a column where it
takes that arm, under the type of another branch, and a union takes it over under the type of its first
member's column. And the members of a union only have to be as wide as the first. `Query.Settled` says
that a query gives no value to a column by these ways that the column does not accept; if no part of a
query does, the results of all its parts fit their headers.
-/

namespace StreamQuery

/-! ## Streams that fit their headers -/

/-- A record that fits a header: one value for each column, which the type of the column accepts. -/
def FitsHeader (header : List Column) (record : Record) : Prop :=
  List.Forall₂ (fun c v => c.datatype.accepts v = true) header record

theorem checkValues_of_fits {header : List Column} {record : Record} (fits : FitsHeader header record) :
    checkValues header record = .ok () := by
  induction fits with
  | nil => rfl
  | cons accepted _ ih =>
    refine bind_eq_ok.mpr ⟨(), ?_, ih⟩
    unfold Column.check
    rw [if_pos accepted]

theorem checkRecord_eq_ok {header : List Column} {record : Record} :
    checkRecord header record = .ok () ↔ FitsHeader header record := by
  constructor
  · intro checked
    unfold checkRecord at checked
    split_ifs at checked with width
    exact List.forall₂_iff_zip.mpr ⟨width.symm, fun cell => accepts_of_checkValues checked _ cell⟩
  · intro fits
    unfold checkRecord
    rw [if_pos fits.length_eq.symm]
    exact checkValues_of_fits fits

theorem check_eq_ok {s : Stream} : s.check = .ok () ↔ ∀ record ∈ s.records, FitsHeader s.header record := by
  unfold Stream.check
  rw [forM_eq_ok]
  exact forall₂_congr fun record _ => checkRecord_eq_ok

/-! ## What expressions hand on -/

mutual

/-- The name whose value an expression has for its own: a name has that of its column, and a CASE has
    that of its first result whose condition is true. -/
def Expr.carried (basis : Basis) : Expr → Option String
  | .var name => some name
  | .rename inner _ => inner.carried basis
  | .case arms => arms.carried basis
  | .lit _ | .not _ | .binary _ _ _ | .call _ _ => none

def Arms.carried (basis : Basis) : Arms → Option String
  | .done => none
  | .otherwise result => result.carried basis
  | .when condition result rest =>
    match condition.evalBy basis.calls basis.scope with
    | .ok (.bool true) => result.carried basis
    | _ => rest.carried basis

end

/-- A scope in which the type of every column accepts the value of its name. -/
def Scope.Accepted (header : List Column) (scope : Scope) : Prop :=
  ∀ name v, scope.get? name = some v → (columnType header name).accepts v = true

/-- A basis in which the calls have values of their result types. -/
def Basis.Fits (basis : Basis) : Prop :=
  ∀ call v, basis.calls call = .ok v → call.1.builtin.resultType.Holds v

/-- A value of a type, or that of a name whose column is of unknown type. -/
def Carries (header : List Column) (scope : Scope) (carried : Option String) (t : DataType) (v : Value) : Prop :=
  t.Holds v ∨ ∃ name, carried = some name ∧ columnType header name = .unknown ∧ scope.get? name = some v

theorem Carries.weaken {header : List Column} {scope : Scope} {carried : Option String} {s t : DataType} {v : Value}
    (h : Carries header scope carried s v) (wider : s.Holds v → t.Holds v) : Carries header scope carried t v :=
  h.imp wider id

theorem accepts_unknown (v : Value) : DataType.unknown.accepts v = true := by
  cases v <;> rfl

theorem carries_var {header : List Column} {scope : Scope} (accepted : scope.Accepted header) {name : String}
    {v : Value} (bound : scope.get? name = some v) : Carries header scope (some name) (columnType header name) v := by
  by_cases unknown : columnType header name = .unknown
  · exact .inr ⟨name, rfl, unknown, bound⟩
  · exact .inl ⟨accepted name v bound, fun same => absurd same unknown⟩

theorem holds_negate {v w : Value} (negated : negate v = .ok w) : DataType.bool.Holds w := by
  cases v with
  | bool truth => cases negated; exact holds_type (.bool _)
  | null => cases negated; exact holds_null _
  | int n => cases negated

theorem holds_arith {op : ArithOp} {a b w : Value} (applied : op.apply a b = .ok w) : DataType.int.Holds w := by
  cases a with
  | int m =>
    cases b with
    | int n =>
      obtain ⟨k, _, rfl⟩ := map_eq_ok.mp applied
      exact holds_type (.int k)
    | null => cases applied; exact holds_null _
    | bool truth => cases applied
  | null => cases b <;> cases applied <;> exact holds_null _
  | bool truth => cases b <;> cases applied

theorem holds_compare {op : CompareOp} {a b w : Value} (applied : op.apply a b = .ok w) : DataType.bool.Holds w := by
  cases a with
  | null =>
    rw [compare_null_left] at applied
    cases applied
    exact holds_null _
  | bool truth => cases b <;> cases applied <;> first | exact holds_null _ | exact holds_type (.bool _)
  | int n => cases b <;> cases applied <;> first | exact holds_null _ | exact holds_type (.bool _)

/-- Where an operator has a type and a value, the value is of the type, whatever the operands. -/
theorem holds_apply {op : BinaryOp} {s t u : DataType} {a b w : Value} (typed : op.type s t = .ok u)
    (applied : op.apply a b = .ok w) : u.Holds w := by
  cases op with
  | arith op =>
    simp only [BinaryOp.type, ArithOp.type] at typed
    split_ifs at typed
    cases typed
    exact holds_arith applied
  | compare op =>
    simp only [BinaryOp.type, CompareOp.type] at typed
    split_ifs at typed
    cases typed
    exact holds_compare applied

section Values

variable {header : List Column} {basis : Basis}

mutual

/-- The value of an expression is of the type that the strict check finds, unless it is that of a
    column of unknown type which the expression hands on. -/
theorem carries_evalBy (accepted : basis.scope.Accepted header) (fits : basis.Fits) :
    ∀ {e : Expr} {t : DataType} {v : Value}, e.infer true header = .ok t →
      e.evalBy basis.calls basis.scope = .ok v → Carries header basis.scope (e.carried basis) t v
  | .lit value, t, v, inferred, value_is => by
    cases inferred
    cases value_is
    exact .inl (holds_type value)
  | .rename inner _, t, v, inferred, value =>
    show Carries header basis.scope (inner.carried basis) t v from
      carries_evalBy accepted fits (e := inner) inferred value
  | .var name, t, v, inferred, value => by
    cases inferred
    have bound : basis.scope.get? name = some v := by
      rw [Expr.evalBy, Scope.lookup] at value
      cases found : basis.scope.get? name with
      | none => rw [found] at value; cases value
      | some w => rw [found] at value; cases value; rfl
    exact carries_var accepted bound
  | .not operand, t, v, inferred, value => by
    obtain ⟨s, _, checked⟩ := bind_eq_ok.mp inferred
    obtain ⟨w, _, negated⟩ := bind_eq_ok.mp value
    have typed := checkedType_strict checked
    unfold negationType at typed
    split_ifs at typed
    cases typed
    exact .inl (holds_negate negated)
  | .binary op left right, t, v, inferred, value => by
    obtain ⟨s, _, inferred⟩ := bind_eq_ok.mp inferred
    obtain ⟨u, _, checked⟩ := bind_eq_ok.mp inferred
    obtain ⟨a, _, value⟩ := bind_eq_ok.mp value
    obtain ⟨b, _, applied⟩ := bind_eq_ok.mp value
    exact .inl (holds_apply (checkedType_strict checked) applied)
  | .case arms, t, v, inferred, value =>
    show Carries header basis.scope (arms.carried basis) t v from (carries_evalArms accepted fits inferred).1 v value
  | .call kind argument, t, v, inferred, value => by
    obtain ⟨f, found, inferred⟩ := bind_eq_ok.mp inferred
    obtain rfl := Except.ok.inj (found.symm.trans kind.function_eq)
    obtain ⟨s, _, inferred⟩ := bind_eq_ok.mp inferred
    obtain ⟨_, _, same⟩ := bind_eq_ok.mp inferred
    cases same
    exact .inl (fits (kind, argument) v value)

/-- So is the result of a CASE, whose type has the values of the branches that come before the arms
    at hand. -/
theorem carries_evalArms (accepted : basis.scope.Accepted header) (fits : basis.Fits) :
    ∀ {arms : Arms} {soFar t : DataType}, arms.infer true header soFar = .ok t →
      (∀ v, arms.evalBy basis.calls basis.scope = .ok v → Carries header basis.scope (arms.carried basis) t v) ∧
        ∀ v, soFar.Holds v → t.Holds v
  | .done, soFar, t, inferred => by
    cases inferred
    refine ⟨fun v value => ?_, fun _ h => h⟩
    cases value
    exact .inl (holds_null _)
  | .otherwise result, soFar, t, inferred => by
    obtain ⟨s, resultType, merged⟩ := bind_eq_ok.mp inferred
    refine ⟨fun v value => ?_, fun v h => mergeBranch_strict merged (.inl h)⟩
    exact (carries_evalBy accepted fits resultType value).weaken fun h => mergeBranch_strict merged (.inr h)
  | .when condition result rest, soFar, t, inferred => by
    obtain ⟨_, _, inferred⟩ := bind_eq_ok.mp inferred
    obtain ⟨_, _, inferred⟩ := bind_eq_ok.mp inferred
    obtain ⟨s, resultType, inferred⟩ := bind_eq_ok.mp inferred
    obtain ⟨merged, merge, restType⟩ := bind_eq_ok.mp inferred
    obtain ⟨ofRest, wider⟩ := carries_evalArms accepted fits restType
    refine ⟨fun v value => ?_, fun v h => wider v (mergeBranch_strict merge (.inl h))⟩
    obtain ⟨c, truth, value⟩ := bind_eq_ok.mp value
    unfold Arms.carried
    rw [truth]
    -- The arm is taken by TRUE alone; FALSE and NULL leave the others.
    cases c with
    | bool satisfied =>
      cases satisfied with
      | true =>
        exact (carries_evalBy accepted fits resultType value).weaken fun h => wider v (mergeBranch_strict merge (.inr h))
      | false => exact ofRest v value
    | null => exact ofRest v value
    | int n => cases value

end

/-- An expression that hands on nothing from a column of unknown type but what its own type
    accepts. -/
def Expr.Settled (header : List Column) (basis : Basis) (e : Expr) : Prop :=
  ∀ t, e.infer true header = .ok t → ∀ name, e.carried basis = some name → columnType header name = .unknown →
    ∀ v, basis.scope.get? name = some v → t.accepts v = true

theorem accepts_of_settled (accepted : basis.scope.Accepted header) (fits : basis.Fits) {e : Expr}
    (settled : e.Settled header basis) {t : DataType} {v : Value} (inferred : e.infer true header = .ok t)
    (value : e.evalBy basis.calls basis.scope = .ok v) : t.accepts v = true := by
  rcases carries_evalBy accepted fits inferred value with holds | ⟨name, carried, unknown, bound⟩
  · exact holds.1
  · exact settled t inferred name carried unknown v bound

end Values

/-! ## Rows of a select -/

theorem isState_step {f : Aggregate} {v state next : Value} (stepped : f.step v state = .ok next)
    (h : f.IsState state) : f.IsState next := by
  cases v with
  | null =>
    have same : f.step .null state = .ok state := by cases f <;> rfl
    rw [same] at stepped
    cases stepped
    exact h
  | bool a =>
    cases f with
    | boolOr =>
      cases state with
      | bool b => cases stepped; rfl
      | int _ | null => cases stepped
    | sum => cases stepped
  | int a =>
    cases f with
    | boolOr => cases stepped
    | sum =>
      cases state with
      | int b =>
        unfold Aggregate.step at stepped
        simp only at stepped
        split_ifs at stepped
        cases stepped
        rfl
      | bool _ | null => cases stepped

/-- The value of a call over some rows is a state of its function. -/
theorem isState_callOver {members : List Scope} {call : Call} :
    ∀ {v}, callOver members call = .ok v → call.1.builtin.IsState v := by
  induction members using List.reverseRecOn with
  | nil =>
    intro v value
    cases value
    exact isState_initial call.1.builtin
  | append_singleton members row ih =>
    intro w value
    obtain ⟨v, a, earlier, _, stepped⟩ := callOver_concat.mp value
    exact isState_step stepped (ih earlier)

theorem mem_filter {condition : Expr} {scopes kept : List Scope} (passed : Scope.filter condition scopes = .ok kept) :
    kept ⊆ scopes := by
  induction scopes generalizing kept with
  | nil => cases passed; exact List.Subset.refl _
  | cons scope rest ih =>
    obtain ⟨_, _, passed⟩ := bind_eq_ok.mp passed
    obtain ⟨satisfied, _, passed⟩ := bind_eq_ok.mp passed
    obtain ⟨others, later, same⟩ := bind_eq_ok.mp passed
    cases satisfied with
    | true => cases same; exact List.cons_subset_cons scope (ih later)
    | false => cases same; exact List.subset_cons_of_subset scope (ih later)

theorem mem_passing {c : Clauses} {scopes kept : List Scope} (passed : c.passing scopes = .ok kept) : kept ⊆ scopes := by
  unfold Clauses.passing at passed
  cases filter : c.filter with
  | none => rw [filter] at passed; cases passed; exact List.Subset.refl _
  | some condition => rw [filter] at passed; exact mem_filter passed

theorem membersOf_subset {c : Clauses} {rows : List Scope} {keyed : List (Record × Scope)}
    (keys : rows.mapM c.keyed = .ok keyed) (key : Record) : membersOf key keyed ⊆ rows := by
  intro row member
  obtain ⟨origin, inside, rowKey⟩ := mem_of_mapM keys _ (mem_membersOf.mp member)
  rwa [show row = origin from (keyed_eq_ok.mp rowKey).2]

theorem grouping_subset {c : Clauses} {rows : List Scope} {groups : List (List Scope)}
    (grouping : c.IsGrouping rows groups) : ∀ members ∈ groups, members ⊆ rows := by
  intro members member
  cases grouping with
  | byKey _ keys partition =>
    obtain ⟨group, inside, rfl⟩ := List.mem_map.mp member
    rw [partition.members group inside]
    exact membersOf_subset keys group.1
  | whole _ =>
    rw [List.mem_singleton.mp member]
    exact List.Subset.refl _

/-- What a row is projected from is one of the rows that are kept, or NULL everywhere, and the calls
    have values of their result types. -/
theorem Clauses.HasBases.fits {c : Clauses} {source : List Column} {kept : List Scope} {bases : List Basis}
    (has : c.HasBases source kept bases) :
    ∀ basis ∈ bases, (basis.scope ∈ kept ∨ basis.scope = Scope.nulls source) ∧ basis.Fits := by
  intro basis member
  cases has with
  | rows _ =>
    obtain ⟨scope, inside, rfl⟩ := List.mem_map.mp member
    exact ⟨.inl inside, fun call v value => nomatch value⟩
  | groups _ grouping =>
    obtain ⟨members, inside, rfl⟩ := List.mem_map.mp member
    refine ⟨?_, fun call v value => ⟨accepts_of_isState (isState_callOver value), by cases call.1.builtin <;> nofun⟩⟩
    have within := grouping_subset grouping members inside
    cases members with
    | nil => exact .inr rfl
    | cons first _ => exact .inl (within List.mem_cons_self)

theorem mem_sorted {c : Clauses} {rows : List Row} {row : Row} : row ∈ c.sorted rows ↔ row ∈ rows := by
  unfold Clauses.sorted
  cases c.orderBy with
  | none => exact Iff.rfl
  | some _ => exact List.mem_mergeSort

theorem accepted_nulls (header : List Column) : (Scope.nulls header).Accepted header :=
  fun name v bound => (fits_nulls header name v bound).1

/-- Settled expressions make a record that fits the columns that the strict check finds for them. -/
theorem fits_values {source : List Column} {basis : Basis} (accepted : basis.scope.Accepted source)
    (fits : basis.Fits) {es : List Expr} (settled : ∀ e ∈ es, e.Settled source basis) :
    ∀ {columns record}, es.mapM (Expr.inferColumn true source) = .ok columns →
      es.mapM (Expr.evalBy basis.calls basis.scope) = .ok record → FitsHeader columns record := by
  induction es with
  | nil =>
    intro columns record named values
    cases named
    cases values
    exact .nil
  | cons e rest ih =>
    intro columns record named values
    rw [List.forall_mem_cons] at settled
    obtain ⟨column, columns, here, later, rfl⟩ := mapM_cons_eq_ok.mp named
    obtain ⟨v, record, value, others, rfl⟩ := mapM_cons_eq_ok.mp values
    obtain ⟨t, inferred, same⟩ := bind_eq_ok.mp here
    cases same
    exact .cons (accepts_of_settled accepted fits settled.1 inferred value) (ih settled.2 later others)

/-- The result of a select fits its header, if the scopes that it reads are accepted and its
    projection is settled in everything that it is projected from. -/
theorem fits_run {c : Clauses} {source : List Column} {scopes : List Scope} {s : Stream}
    (run : c.run true source scopes = .ok s) (accepted : ∀ scope ∈ scopes, scope.Accepted source)
    (settled : ∀ kept bases, c.passing scopes = .ok kept → c.HasBases source kept bases →
      ∀ basis ∈ bases, ∀ e ∈ c.projection, e.Settled source basis) :
    ∀ record ∈ s.records, FitsHeader s.header record := by
  obtain ⟨named, _, kept, rows, passed, projected, records⟩ := run_eq_ok.mp run
  obtain ⟨bases, has, _, each⟩ := rows_eq_ok.mp projected
  intro record member
  rw [records] at member
  obtain ⟨row, inside, rfl⟩ := List.mem_map.mp member
  obtain ⟨basis, among, made⟩ := mem_of_mapM each row (mem_sorted.mp inside)
  obtain ⟨origin, fits⟩ := has.fits basis among
  have readable : basis.scope.Accepted source := by
    rcases origin with inKept | nulls
    · exact accepted _ (mem_passing passed inKept)
    · rw [nulls]
      exact accepted_nulls source
  exact fits_values readable fits (settled kept bases passed has basis among) named (projectFrom_eq_ok.mp made).1

theorem accepted_scopes {s : Stream} (fits : ∀ record ∈ s.records, FitsHeader s.header record) :
    ∀ scope ∈ s.scopes, scope.Accepted s.header := by
  intro scope member
  obtain ⟨record, inside, rfl⟩ := List.mem_map.mp member
  refine read_ofRecord (p := fun t v => t.accepts v = true) fun cell place => ?_
  exact (List.forall₂_iff_zip.mp (fits record inside)).2 place

/-! ## Unions and cross joins -/

/-- A stream that can stand under a header of its width: what it holds in a column of unknown type, or
    of a type that is not compatible with the one in its place, is accepted in that place. -/
def Stream.StandsUnder (s : Stream) (header : List Column) : Prop :=
  ∀ record ∈ s.records, ∀ cell ∈ (header.zip s.header).zip record,
    (cell.1.2.datatype = .unknown ∨ cell.1.1.datatype.compatible cell.1.2.datatype = false) →
      cell.1.1.datatype.accepts cell.2 = true

theorem accepts_of_compatible {s t : DataType} {v : Value} (accepted : s.accepts v = true)
    (stands : s = .unknown ∨ t.compatible s = false → t.accepts v = true) : t.accepts v = true := by
  cases compatible : t.compatible s with
  | false => exact stands (.inr compatible)
  | true =>
    rcases compatible_iff.mp compatible with rfl | same | rfl
    · exact accepts_unknown v
    · exact stands (.inl same)
    · exact accepted

theorem fits_under {header inner : List Column} {record : Record} (width : inner.length = header.length)
    (fits : FitsHeader inner record)
    (stands : ∀ cell ∈ (header.zip inner).zip record,
      (cell.1.2.datatype = .unknown ∨ cell.1.1.datatype.compatible cell.1.2.datatype = false) →
        cell.1.1.datatype.accepts cell.2 = true) : FitsHeader header record := by
  induction fits generalizing header with
  | nil =>
    obtain rfl : header = [] := List.length_eq_zero_iff.mp width.symm
    exact .nil
  | @cons d v inner record accepted _ ih =>
    cases header with
    | nil => cases width
    | cons c header =>
      simp only [List.zip_cons_cons, List.forall_mem_cons] at stands
      exact .cons (accepts_of_compatible accepted stands.1) (ih (Nat.succ.inj width) stands.2)

theorem fits_unionAll {first : Stream} {rest : List Stream} {s : Stream}
    (fits : ∀ member ∈ first :: rest, ∀ record ∈ member.records, FitsHeader member.header record)
    (under : ∀ member ∈ rest, member.StandsUnder first.header) (joined : Stream.unionAll (first :: rest) = .ok s) :
    ∀ record ∈ s.records, FitsHeader s.header record := by
  obtain ⟨_, widths, same⟩ := bind_eq_ok.mp joined
  cases same
  rw [List.forall_mem_cons] at fits
  intro record member
  rcases List.mem_append.mp member with inFirst | inRest
  · exact fits.1 record inFirst
  · obtain ⟨other, inside, place⟩ := List.mem_flatMap.mp inRest
    have width := forM_eq_ok.mp widths other inside
    unfold Stream.checkWidth at width
    split_ifs at width with same
    exact fits_under same (fits.2 other inside record place) (under other inside record place)

theorem mem_choices {records : List Record} {rest : List (List Record)} {choice : List Record} :
    choice ∈ choices (records :: rest) ↔ ∃ record ∈ records, ∃ others ∈ choices rest, choice = record :: others := by
  simp [choices, eq_comm]

/-- What types and values at the same places have in common in every record of the streams, they
    have in common in a joined record. -/
theorem forall₂_joined {R : DataType → Value → Prop} {streams : List Stream}
    (each : ∀ s ∈ streams, ∀ record ∈ s.records, List.Forall₂ (fun c v => R c.datatype v) s.header record)
    (index : Nat) :
    ∀ choice ∈ choices (streams.map Stream.records),
      List.Forall₂ (fun c v => R c.datatype v) ((streams.zipIdx index).flatMap fun (s, i) => s.joinedColumns i)
        (joinRecords choice) := by
  induction streams generalizing index with
  | nil =>
    intro choice member
    obtain rfl : choice = [] := by simpa [choices] using member
    exact .nil
  | cons s rest ih =>
    rw [List.forall_mem_cons] at each
    intro choice member
    obtain ⟨record, inside, others, later, rfl⟩ := mem_choices.mp member
    have here : List.Forall₂ (fun c v => R c.datatype v) (s.joinedColumns index) record :=
      List.forall₂_map_left_iff.mpr (each.1 record inside)
    exact List.rel_append here (ih each.2 (index + 1) others later)

theorem fits_crossJoin {streams : List Stream}
    (fits : ∀ s ∈ streams, ∀ record ∈ s.records, FitsHeader s.header record) :
    ∀ record ∈ (Stream.crossJoin streams).records, FitsHeader (Stream.crossJoin streams).header record := by
  intro record member
  obtain ⟨choice, inside, rfl⟩ := List.mem_map.mp member
  exact forall₂_joined (R := fun t v => t.accepts v = true) fits 0 choice inside

/-! ## Queries -/

def Checks.all : Checks := ⟨true, true⟩

mutual

/-- A query with all queries inside it. -/
def Query.parts : Query → List Query
  | .table name => [.table name]
  | .select clauses source => .select clauses source :: Query.sourceParts source
  | .unionAll queries => .unionAll queries :: Query.allParts queries
  | .crossJoin queries => .crossJoin queries :: Query.allParts queries

def Query.allParts : List Query → List Query
  | [] => []
  | q :: rest => q.parts ++ Query.allParts rest

def Query.sourceParts : Option Query → List Query
  | none => []
  | some q => q.parts

end

/-- A query that, where it has a result, gives no value a type which does not accept it: a select hands
    on nothing from columns of unknown type but what the types of its own columns accept, in the rows
    and groups that it projects, and the later members of a union stand under the header of the
    first. -/
def Query.Settled (tables : Tables) (q : Query) : Prop :=
  ∀ s, q.eval .all tables = .ok s →
    match q with
    | .table _ => True
    | .crossJoin _ => True
    | .select clauses source => ∀ header scopes kept bases, Query.evalSource .all tables source = .ok (header, scopes) →
        clauses.passing scopes = .ok kept → clauses.HasBases header kept bases →
        ∀ basis ∈ bases, ∀ e ∈ clauses.projection, e.Settled header basis
    | .unionAll queries => ∀ first rest, Query.evalAll .all tables queries = .ok (first :: rest) →
        ∀ member ∈ rest, member.StandsUnder first.header

theorem mem_parts (q : Query) : q ∈ q.parts := by
  cases q <;> simp [Query.parts]

theorem mem_allParts {queries : List Query} {q : Query} (member : q ∈ queries) : q ∈ Query.allParts queries := by
  induction queries with
  | nil => cases member
  | cons first rest ih =>
    rw [Query.allParts, List.mem_append]
    rcases List.mem_cons.mp member with rfl | later
    · exact .inl (mem_parts q)
    · exact .inr (ih later)

theorem evalAll_eq_ok {checks : Checks} {tables : Tables} {queries : List Query} {streams : List Stream}
    (evaluated : Query.evalAll checks tables queries = .ok streams) :
    ∀ s ∈ streams, ∃ q ∈ queries, q.eval checks tables = .ok s := by
  rw [Query.evalAll_eq_mapM] at evaluated
  exact mem_of_mapM evaluated

/-- Results of some queries that fit their headers, whenever there are results. -/
def AllFit (tables : Tables) (queries : List Query) : Prop :=
  ∀ q ∈ queries, ∀ s, q.eval .all tables = .ok s → ∀ record ∈ s.records, FitsHeader s.header record

theorem AllFit.streams {tables : Tables} {queries : List Query} {streams : List Stream}
    (fit : AllFit tables (Query.allParts queries)) (evaluated : Query.evalAll .all tables queries = .ok streams) :
    ∀ s ∈ streams, ∀ record ∈ s.records, FitsHeader s.header record := by
  intro s member
  obtain ⟨q, inside, result⟩ := evalAll_eq_ok evaluated s member
  exact fit q (mem_allParts inside) s result

theorem table_eq_ok {checks : Checks} {tables : Tables} {name : String} {s : Stream} :
    checks.table tables name = .ok s ↔ tables name = .ok s ∧ (checks.sources = true → s.check = .ok ()) := by
  unfold Checks.table
  rw [bind_eq_ok]
  cases checks.sources with
  | false =>
    constructor
    · rintro ⟨t, found, same⟩
      cases same
      exact ⟨found, nofun⟩
    · rintro ⟨found, _⟩
      exact ⟨s, found, rfl⟩
  | true =>
    constructor
    · rintro ⟨t, found, checked⟩
      obtain ⟨_, valid, same⟩ := bind_eq_ok.mp checked
      cases same
      exact ⟨found, fun _ => valid⟩
    · rintro ⟨found, valid⟩
      exact ⟨s, found, bind_eq_ok.mpr ⟨(), valid rfl, rfl⟩⟩

theorem fits_table {tables : Tables} {name : String} {s : Stream} (found : Checks.all.table tables name = .ok s) :
    ∀ record ∈ s.records, FitsHeader s.header record :=
  check_eq_ok.mp ((table_eq_ok.mp found).2 rfl)

theorem fits_select {tables : Tables} {clauses : Clauses} {source : Option Query} {s : Stream}
    (fit : AllFit tables (Query.sourceParts source)) (settled : (Query.select clauses source).Settled tables)
    (evaluated : (Query.select clauses source).eval .all tables = .ok s) :
    ∀ record ∈ s.records, FitsHeader s.header record := by
  obtain ⟨⟨header, scopes⟩, read, run⟩ := bind_eq_ok.mp evaluated
  refine fits_run run ?_ fun kept bases => settled s evaluated header scopes kept bases read
  cases source with
  | none =>
    cases read
    intro scope member
    cases List.mem_singleton.mp member
    exact accepted_nulls []
  | some q =>
    obtain ⟨t, result, same⟩ := bind_eq_ok.mp read
    cases same
    exact accepted_scopes (fit q (mem_parts q) t result)

theorem fits_union {tables : Tables} {queries : List Query} {s : Stream}
    (fit : AllFit tables (Query.allParts queries)) (settled : (Query.unionAll queries).Settled tables)
    (evaluated : (Query.unionAll queries).eval .all tables = .ok s) :
    ∀ record ∈ s.records, FitsHeader s.header record := by
  obtain ⟨streams, members, joined⟩ := bind_eq_ok.mp evaluated
  cases streams with
  | nil =>
    cases joined
    exact fun record member => nomatch member
  | cons first rest => exact fits_unionAll (fit.streams members) (settled s evaluated first rest members) joined

mutual

/-- One part of a query after the other: a part fits its header if the parts inside it do. -/
theorem allFit_parts {tables : Tables} : ∀ q : Query, (∀ part ∈ q.parts, part.Settled tables) → AllFit tables q.parts
  | .table name, _ => by
    intro q member s evaluated
    cases List.mem_singleton.mp member
    exact fits_table evaluated
  | .select clauses source, settled => by
    rw [Query.parts, List.forall_mem_cons] at settled
    have inside := allFit_sourceParts source settled.2
    exact List.forall_mem_cons.mpr ⟨fun s evaluated => fits_select inside settled.1 evaluated, inside⟩
  | .unionAll queries, settled => by
    rw [Query.parts, List.forall_mem_cons] at settled
    have inside := allFit_allParts queries settled.2
    exact List.forall_mem_cons.mpr ⟨fun s evaluated => fits_union inside settled.1 evaluated, inside⟩
  | .crossJoin queries, settled => by
    rw [Query.parts, List.forall_mem_cons] at settled
    have inside := allFit_allParts queries settled.2
    refine List.forall_mem_cons.mpr ⟨fun s evaluated => ?_, inside⟩
    obtain ⟨streams, members, same⟩ := bind_eq_ok.mp evaluated
    cases same
    exact fits_crossJoin (inside.streams members)

theorem allFit_allParts {tables : Tables} : ∀ queries : List Query,
    (∀ part ∈ Query.allParts queries, part.Settled tables) → AllFit tables (Query.allParts queries)
  | [], _ => fun _ member => nomatch member
  | q :: rest, settled => by
    rw [Query.allParts, List.forall_mem_append] at settled
    exact List.forall_mem_append.mpr ⟨allFit_parts q settled.1, allFit_allParts rest settled.2⟩

theorem allFit_sourceParts {tables : Tables} : ∀ source : Option Query,
    (∀ part ∈ Query.sourceParts source, part.Settled tables) → AllFit tables (Query.sourceParts source)
  | none, _ => fun _ member => nomatch member
  | some q, settled => allFit_parts q settled

end

/-- With both checks on, the results of a query and of all queries inside it fit their headers, if
    no part of the query gives a value of a column of unknown type, or of a type that is not compatible
    with the first in a union, to a column that does not accept the value. -/
theorem results_fit {tables : Tables} {q : Query} (settled : ∀ part ∈ q.parts, part.Settled tables) :
    ∀ part ∈ q.parts, ∀ s, part.eval .all tables = .ok s → s.check = .ok () := by
  intro part member s evaluated
  exact check_eq_ok.mpr (allFit_parts q settled part member s evaluated)

/-- The theorem at a CASE over a column of unknown type that a union has made: where the column holds a
    truth value the CASE has its other arm, whose INT is its type. In another union a column of type
    BOOL stands under this INT, and holds nothing but NULL. -/
theorem results_fit_case :
    let tables : Tables := fun _ => .ok ⟨[⟨"b", .bool⟩], [[.null]]⟩
    let one : Value → Query := fun v => .select ⟨[.rename (.lit v) "x"], none, none, none⟩ none
    let both : Query := .unionAll [one .null, one (.bool true)]
    let select : Query := .select
      ⟨[.rename (.case (.when (.not (.var "x")) (.var "x") (.otherwise (.lit (.int 1))))) "y"], none, none, none⟩
      (some both)
    let q : Query := .unionAll [select, .table "t"]
    q.eval .all tables = .ok ⟨[⟨"y", .int⟩], [[.int 1], [.int 1], [.null]]⟩ ∧
      (∀ part ∈ q.parts, part.Settled tables) ∧
        ∀ part ∈ q.parts, ∀ s, part.eval .all tables = .ok s → s.check = .ok () := by
  intro tables one both select q
  have literal : ∀ v, (one v).Settled tables := by
    intro v _ _ header scopes kept bases _ _ _ basis _ e member t _ name carried
    cases List.mem_singleton.mp member
    cases carried
  have settledBoth : both.Settled tables := by
    intro _ _ first rest evaluated s member
    cases evaluated
    cases List.mem_singleton.mp member
    unfold Stream.StandsUnder
    decide
  have settledSelect : select.Settled tables := by
    intro _ _ header scopes kept bases read passed has basis member e projected t _ name carried
    cases read
    cases passed
    cases List.mem_singleton.mp projected
    cases has with
    | rows _ =>
      obtain ⟨scope, inside, rfl⟩ := List.mem_map.mp member
      rcases List.mem_cons.mp inside with rfl | second
      · cases carried
      · cases List.mem_singleton.mp second
        cases carried
    | groups folded _ => cases folded
  have settledUnion : q.Settled tables := by
    intro _ _ first rest evaluated s member
    cases evaluated
    cases List.mem_singleton.mp member
    unfold Stream.StandsUnder
    decide
  have settled : ∀ part ∈ q.parts, part.Settled tables := by
    have all : q.parts = [q, select, both, one .null, one (.bool true), .table "t"] := rfl
    rw [all]
    simp only [List.forall_mem_cons, List.not_mem_nil, false_implies, implies_true, and_true]
    exact ⟨settledUnion, settledSelect, settledBoth, literal .null, literal (.bool true), fun _ _ => trivial⟩
  exact ⟨rfl, settled, results_fit settled⟩

/-- Without that results do not fit: a CASE of type INT hands on a truth value of a column of
    unknown type, and a union has a truth value under the INT of its first member. -/
theorem results_misfit :
    let tables : Tables := fun name => .error (.tableNotFound name)
    let one : Value → Query := fun v => .select ⟨[.rename (.lit v) "x"], none, none, none⟩ none
    let passed : Query :=
      .select ⟨[.rename (.case (.when (.lit (.bool true)) (.var "x") (.otherwise (.lit (.int 1))))) "y"],
        none, none, none⟩ (some (.unionAll [one .null, one (.bool true)]))
    let joined : Query := .unionAll [one (.int 1), one (.bool true)]
    passed.eval .all tables = .ok ⟨[⟨"y", .int⟩], [[.null], [.bool true]]⟩ ∧
      joined.eval .all tables = .ok ⟨[⟨"x", .int⟩], [[.int 1], [.bool true]]⟩ ∧
        DataType.int.accepts (.bool true) = false := by
  exact ⟨rfl, rfl, rfl⟩

end StreamQuery
