import Mathlib.Tactic.SplitIfs
import StreamQuery.Expr.Typing
import StreamQuery.Proofs.Outcome

/-!
# Soundness of strict types

An expression that the strict check accepts runs into no type error on a row that fits its
header, and its value has the type that was found. The invariant says more of the type
`unknown` than that it accepts every value: whatever has no known type is NULL. Without that
an operator could take an operand that its type rule let through unseen.
-/

namespace StreamQuery

/-! ## What a type promises -/

/-- What a type promises of a value: the type accepts it, and an unknown type has no value
    but NULL. -/
def DataType.Holds (t : DataType) (v : Value) : Prop :=
  t.accepts v = true ∧ (t = .unknown → v = .null)

/-- An outcome that a type allows: it is no type error, and a value is one of the type. -/
def Sound (t : DataType) (outcome : Except Error Value) : Prop :=
  (∀ required found, outcome ≠ .error (.typeMismatch required found)) ∧
    ∀ v, outcome = .ok v → t.Holds v

/-- A scope in which every bound name has a value that the type of its column promises. -/
def Scope.Fits (header : List Column) (scope : Scope) : Prop :=
  ∀ name v, scope.get? name = some v → (columnType header name).Holds v

/-- Finished results each of which has the result type of its function. -/
def Finished.Fits (finished : Finished) : Prop :=
  ∀ call v, (call, v) ∈ finished → call.1.builtin.resultType.accepts v = true

theorem holds_null (t : DataType) : t.Holds .null := by
  cases t <;> exact ⟨rfl, fun _ => rfl⟩

theorem holds_unknown {v : Value} : DataType.unknown.Holds v ↔ v = .null :=
  ⟨fun h => h.2 rfl, fun h => h ▸ holds_null _⟩

theorem holds_type (v : Value) : v.type.Holds v := by
  cases v with
  | bool b => exact ⟨rfl, nofun⟩
  | int n => exact ⟨rfl, nofun⟩
  | null => exact holds_null _

/-- A value that a known type accepts is NULL or shows that type. -/
theorem holds_known {t : DataType} {v : Value} (known : t ≠ .unknown) :
    t.Holds v ↔ v = .null ∨ v.type = t := by
  cases v <;> cases t <;> simp_all [DataType.Holds, DataType.accepts, DataType.compatible, Value.type]

theorem holds_bool {v : Value} (h : DataType.bool.Holds v) : v = .null ∨ ∃ b, v = .bool b := by
  rcases (holds_known (by decide)).mp h with null | shown
  · exact .inl null
  · cases v with
    | bool b => exact .inr ⟨b, rfl⟩
    | int n => cases shown
    | null => exact .inl rfl

theorem holds_int {v : Value} (h : DataType.int.Holds v) : v = .null ∨ ∃ n, v = .int n := by
  rcases (holds_known (by decide)).mp h with null | shown
  · exact .inl null
  · cases v with
    | bool b => cases shown
    | int n => exact .inr ⟨n, rfl⟩
    | null => exact .inl rfl

theorem compatible_iff {s t : DataType} :
    s.compatible t = true ↔ s = .unknown ∨ t = .unknown ∨ s = t := by
  simp [DataType.compatible, or_assoc]

/-- A value of a type that is compatible with a known one is a value of the known type. -/
theorem holds_of_compatible {s t : DataType} {v : Value} (known : t ≠ .unknown)
    (compatible : s.compatible t = true) (h : s.Holds v) : t.Holds v := by
  rcases compatible_iff.mp compatible with rfl | rfl | rfl
  · rw [holds_unknown.mp h]; exact holds_null t
  · exact absurd rfl known
  · exact h

/-! ## Outcomes -/

theorem sound_ok {t : DataType} {v : Value} (h : t.Holds v) : Sound t (.ok v) :=
  ⟨nofun, fun w same => by cases same; exact h⟩

theorem sound_invalid (t : DataType) (cause : Invalid) : Sound t (.error (.invalidValue cause)) :=
  ⟨nofun, nofun⟩

/-- What follows a sound outcome is sound if it is so on every value that the type allows. -/
theorem Sound.bind {s t : DataType} {outcome : Except Error Value}
    {next : Value → Except Error Value} (first : Sound s outcome)
    (rest : ∀ v, s.Holds v → Sound t (next v)) : Sound t (outcome >>= next) := by
  cases outcome with
  | ok v => exact rest v (first.2 v rfl)
  | error e =>
    refine ⟨fun required found same => ?_, nofun⟩
    exact first.1 required found (by cases same; rfl)

theorem Sound.weaken {s t : DataType} {outcome : Except Error Value} (h : Sound s outcome)
    (wider : ∀ v, s.Holds v → t.Holds v) : Sound t outcome :=
  ⟨h.1, fun v same => wider v (h.2 v same)⟩

/-! ## Operators -/

theorem sound_negate {t : DataType} {v : Value} (checked : t.compatible .bool = true)
    (h : t.Holds v) : Sound .bool (negate v) := by
  rcases holds_bool (holds_of_compatible (by decide) checked h) with rfl | ⟨b, rfl⟩
  · exact sound_ok (holds_null _)
  · exact sound_ok (holds_type (.bool _))

/-- Integers fail under an operator only because the result is no value. -/
theorem onInts_error {op : ArithOp} {a b : Int} {e : Error} (h : op.onInts a b = .error e) :
    ∃ cause, e = .invalidValue cause := by
  unfold ArithOp.onInts at h
  cases result : op.exact a b with
  | ok n =>
    rw [result] at h
    simp only [bind, Except.bind] at h
    split_ifs at h
    exact ⟨_, (Except.error.inj h).symm⟩
  | error cause =>
    rw [result] at h
    cases h
    cases op with
    | add | sub | mul => cases result
    | div =>
      simp only [ArithOp.exact] at result
      split_ifs at result
      exact ⟨_, (Except.error.inj result).symm⟩

theorem sound_onInts (op : ArithOp) (a b : Int) : Sound .int (Value.int <$> op.onInts a b) := by
  cases result : op.onInts a b with
  | ok n => exact sound_ok (holds_type (.int n))
  | error e =>
    obtain ⟨cause, rfl⟩ := onInts_error result
    exact sound_invalid _ cause

theorem sound_arith (op : ArithOp) {s t : DataType} {a b : Value}
    (left : s.compatible .int = true) (right : t.compatible .int = true)
    (ha : s.Holds a) (hb : t.Holds b) : Sound .int (op.apply a b) := by
  rcases holds_int (holds_of_compatible (by decide) left ha) with rfl | ⟨m, rfl⟩
  · rcases holds_int (holds_of_compatible (by decide) right hb) with rfl | ⟨n, rfl⟩
    · exact sound_ok (holds_null _)
    · exact sound_ok (holds_null _)
  · rcases holds_int (holds_of_compatible (by decide) right hb) with rfl | ⟨n, rfl⟩
    · exact sound_ok (holds_null _)
    · exact sound_onInts op m n

theorem compare_null_left (op : CompareOp) (b : Value) : op.apply .null b = .ok .null := by
  cases b <;> rfl

theorem compare_null_right (op : CompareOp) (a : Value) : op.apply a .null = .ok .null := by
  cases a <;> rfl

theorem sound_compare (op : CompareOp) {s t : DataType} {a b : Value}
    (checked : s.compatible t = true) (ha : s.Holds a) (hb : t.Holds b) :
    Sound .bool (op.apply a b) := by
  rcases compatible_iff.mp checked with rfl | rfl | rfl
  · rw [holds_unknown.mp ha, compare_null_left]; exact sound_ok (holds_null _)
  · rw [holds_unknown.mp hb, compare_null_right]; exact sound_ok (holds_null _)
  · cases s with
    | unknown => rw [holds_unknown.mp ha, compare_null_left]; exact sound_ok (holds_null _)
    | bool =>
      rcases holds_bool ha with rfl | ⟨x, rfl⟩
      · rw [compare_null_left]; exact sound_ok (holds_null _)
      · rcases holds_bool hb with rfl | ⟨y, rfl⟩
        · exact sound_ok (holds_null _)
        · exact sound_ok (holds_type (.bool _))
    | int =>
      rcases holds_int ha with rfl | ⟨x, rfl⟩
      · rw [compare_null_left]; exact sound_ok (holds_null _)
      · rcases holds_int hb with rfl | ⟨y, rfl⟩
        · exact sound_ok (holds_null _)
        · exact sound_ok (holds_type (.bool _))

theorem sound_apply (op : BinaryOp) {s t u : DataType} {a b : Value} (checked : op.type s t = .ok u)
    (ha : s.Holds a) (hb : t.Holds b) : Sound u (op.apply a b) := by
  cases op with
  | arith op =>
    simp only [BinaryOp.type, ArithOp.type] at checked
    split_ifs at checked with operands
    cases checked
    obtain ⟨left, right⟩ := Bool.and_eq_true_iff.mp operands
    exact sound_arith op left right ha hb
  | compare op =>
    simp only [BinaryOp.type, CompareOp.type] at checked
    split_ifs at checked with operands
    cases checked
    exact sound_compare op operands ha hb

/-! ## Strict checks -/

theorem checkedType_strict {outcome : Except Error DataType} {fallback t : DataType}
    (h : checkedType true outcome fallback = .ok t) : outcome = .ok t := by
  cases outcome with
  | ok s => exact h
  | error e => cases h

theorem requireType_strict {required t : DataType} {reason : Requirement}
    (h : requireType true required reason t = .ok ()) : t.compatible required = true := by
  unfold requireType at h
  split_ifs at h with refused
  simpa using refused

/-- The merged type of CASE branches has the values of the branches so far and those of the
    one more. -/
theorem mergeBranch_strict {soFar branch merged : DataType} {v : Value}
    (h : mergeBranch true soFar branch = .ok merged) (value : soFar.Holds v ∨ branch.Holds v) :
    merged.Holds v := by
  unfold mergeBranch at h
  split_ifs at h with known
  · cases h
    rcases value with before | here
    · rw [known] at before
      rw [holds_unknown.mp before]
      exact holds_null _
    · exact here
  · obtain ⟨_, agreed, same⟩ := bind_eq_ok.mp h
    cases same
    rcases value with before | here
    · exact before
    · exact holds_of_compatible known (requireType_strict agreed) here

/-- A condition whose type is compatible with BOOL holds, fails or is NULL. -/
theorem isSatisfied_ok {place : String} {t : DataType} {v : Value}
    (checked : t.compatible .bool = true) (h : t.Holds v) : ∃ kept, isSatisfied place v = .ok kept := by
  rcases holds_bool (holds_of_compatible (by decide) checked h) with rfl | ⟨b, rfl⟩
  · exact ⟨false, rfl⟩
  · exact ⟨b, rfl⟩

/-! ## Scopes -/

/-- The first column of a name gives both its type and its value: what holds of every value and
    the type of its column holds of what the names of the record read. -/
theorem read_ofRecord {p : DataType → Value → Prop} : ∀ {header : List Column} {record : Record},
    (∀ cell ∈ header.zip record, p cell.1.datatype cell.2) →
      ∀ name v, (Scope.ofRecord header record).get? name = some v → p (columnType header name) v
  | [], _, _ => by
    intro name v bound
    simp [Scope.ofRecord, Scope.get?] at bound
  | _ :: _, [], _ => by
    intro name v bound
    simp [Scope.ofRecord, Scope.get?] at bound
  | c :: header, w :: record, cells => by
    intro name v bound
    by_cases same : c.name = name
    · subst same
      simp only [Scope.ofRecord, Scope.get?, List.map_cons, List.zip_cons_cons, List.lookup_cons,
        beq_self_eq_true, Option.some.injEq] at bound
      subst bound
      simpa [columnType] using cells (c, w) (by simp)
    · have later : (Scope.ofRecord header record).get? name = some v := by
        have other : (name == c.name) = false := by simpa using Ne.symm same
        simpa [Scope.ofRecord, Scope.get?, List.lookup_cons, other] using bound
      have type : columnType (c :: header) name = columnType header name := by
        simp [columnType, same]
      rw [type]
      exact read_ofRecord (fun cell member => cells cell (List.mem_cons_of_mem _ member)) name v later

theorem fits_ofRecord {header : List Column} {record : Record}
    (cells : ∀ cell ∈ header.zip record, cell.1.datatype.Holds cell.2) : (Scope.ofRecord header record).Fits header :=
  read_ofRecord cells

theorem sound_lookup {header : List Column} {scope : Scope} (fits : scope.Fits header)
    (name : String) : Sound (columnType header name) (scope.lookup name) := by
  unfold Scope.lookup
  cases bound : scope.get? name with
  | some v => exact sound_ok (fits name v bound)
  | none => exact ⟨nofun, nofun⟩

theorem holds_finished {finished : Finished} (fits : finished.Fits) {call : Call} {v : Value}
    (found : finished.lookup call = some v) : call.1.builtin.resultType.Holds v := by
  obtain ⟨before, after, split, _⟩ := List.lookup_eq_some_iff.mp found
  have accepted := fits call v (by simp [split])
  exact ⟨accepted, by cases call.1.builtin <;> nofun⟩

theorem sound_finished {finished : Finished} (fits : finished.Fits) (k : AggregateKind) (e : Expr) :
    Sound k.builtin.resultType
      (match finished.lookup (k, e) with
        | some value => .ok value
        | none => .error (.invalidValue (.misplacedAggregate k))) := by
  cases found : finished.lookup (k, e) with
  | some v => exact sound_ok (holds_finished fits found)
  | none => exact sound_invalid _ _

/-! ## Expressions -/

mutual

/-- The value of an expression is one of the type that the strict check finds. -/
theorem sound_evalWith {header : List Column} {scope : Scope} {finished : Finished}
    (scopeFits : scope.Fits header) (finishedFits : finished.Fits) :
    ∀ {e : Expr} {t : DataType}, e.infer true header = .ok t → Sound t (e.evalWith scope finished)
  | .lit value, t, inferred => by
    cases inferred
    exact sound_ok (holds_type value)
  | .rename inner _, t, inferred => sound_evalWith scopeFits finishedFits (e := inner) inferred
  | .var name, t, inferred => by
    cases inferred
    exact sound_lookup scopeFits name
  | .not operand, t, inferred => by
    obtain ⟨s, operandType, checked⟩ := bind_eq_ok.mp inferred
    have allowed := checkedType_strict checked
    unfold negationType at allowed
    split_ifs at allowed with compatible
    cases allowed
    exact (sound_evalWith scopeFits finishedFits operandType).bind fun v h => sound_negate compatible h
  | .binary op left right, t, inferred => by
    obtain ⟨s, leftType, inferred⟩ := bind_eq_ok.mp inferred
    obtain ⟨u, rightType, checked⟩ := bind_eq_ok.mp inferred
    exact (sound_evalWith scopeFits finishedFits leftType).bind fun a ha =>
      (sound_evalWith scopeFits finishedFits rightType).bind fun b hb =>
        sound_apply op (checkedType_strict checked) ha hb
  | .case arms, t, inferred => by
    have both : Sound t (arms.evalWith scope finished) ∧ ∀ v, DataType.unknown.Holds v → t.Holds v :=
      sound_evalArms scopeFits finishedFits inferred
    exact both.1
  | .call kind argument, t, inferred => by
    obtain ⟨f, found, inferred⟩ := bind_eq_ok.mp inferred
    obtain rfl := Except.ok.inj (found.symm.trans kind.function_eq)
    obtain ⟨s, _, inferred⟩ := bind_eq_ok.mp inferred
    obtain ⟨_, _, same⟩ := bind_eq_ok.mp inferred
    cases same
    exact sound_finished finishedFits kind argument

/-- So is the result of a CASE; and its type has the values of the branches that come before
    the arms at hand. -/
theorem sound_evalArms {header : List Column} {scope : Scope} {finished : Finished}
    (scopeFits : scope.Fits header) (finishedFits : finished.Fits) :
    ∀ {arms : Arms} {soFar t : DataType}, arms.infer true header soFar = .ok t →
      Sound t (arms.evalWith scope finished) ∧ ∀ v, soFar.Holds v → t.Holds v
  | .done, soFar, t, inferred => by
    cases inferred
    exact ⟨sound_ok (holds_null _), fun _ h => h⟩
  | .otherwise result, soFar, t, inferred => by
    obtain ⟨s, resultType, merged⟩ := bind_eq_ok.mp inferred
    have sound := sound_evalWith scopeFits finishedFits resultType
    exact ⟨sound.weaken fun v h => mergeBranch_strict merged (.inr h),
      fun v h => mergeBranch_strict merged (.inl h)⟩
  | .when condition result rest, soFar, t, inferred => by
    obtain ⟨c, conditionType, inferred⟩ := bind_eq_ok.mp inferred
    obtain ⟨_, boolean, inferred⟩ := bind_eq_ok.mp inferred
    obtain ⟨s, resultType, inferred⟩ := bind_eq_ok.mp inferred
    obtain ⟨merged, merge, restType⟩ := bind_eq_ok.mp inferred
    obtain ⟨restSound, wider⟩ := sound_evalArms scopeFits finishedFits restType
    refine ⟨?_, fun v h => wider v (mergeBranch_strict merge (.inl h))⟩
    -- Whether the branch is taken or not, its type is part of the type of the CASE.
    refine (sound_evalWith scopeFits finishedFits conditionType).bind fun v h => ?_
    obtain ⟨kept, satisfied⟩ := isSatisfied_ok (requireType_strict boolean) h
    rw [satisfied]
    cases kept with
    | false => exact restSound
    | true =>
      have sound := sound_evalWith scopeFits finishedFits resultType
      exact sound.weaken fun v h => wider v (mergeBranch_strict merge (.inr h))

end

/-- Strict types are sound on every record that fits its header and holds nothing but NULL
    in columns of unknown type, with finished results of the types of their functions. Of
    columns that share a name the first decides in the check and in the evaluation. -/
theorem infer_strict_sound {e : Expr} {header : List Column} {record : Record} {finished : Finished}
    {t : DataType}
    (cells : ∀ cell ∈ header.zip record,
      cell.1.datatype.accepts cell.2 = true ∧ (cell.1.datatype = .unknown → cell.2 = .null))
    (results : ∀ call v, (call, v) ∈ finished → call.1.builtin.resultType.accepts v = true)
    (inferred : e.infer true header = .ok t) :
    (∀ required found, e.evalWith (.ofRecord header record) finished ≠
        .error (.typeMismatch required found)) ∧
      ∀ v, e.evalWith (.ofRecord header record) finished = .ok v →
        t.accepts v = true ∧ (t = .unknown → v = .null) :=
  sound_evalWith (fits_ofRecord cells) results inferred

/-- The theorem at a CASE with branches of unknown and of known type, over two columns of one
    name and one of unknown type. -/
theorem infer_strict_sound_case :
    let header : List Column := [⟨"x", .int⟩, ⟨"x", .bool⟩, ⟨"n", .unknown⟩]
    let record : Record := [.int 5, .bool true, .null]
    let e : Expr := .case (.when (.var "n") (.var "n")
      (.when (.binary (.compare .gt) (.var "x") (.lit (.int 3))) (.call .sum (.var "x"))
        (.otherwise (.lit .null))))
    e.infer true header = .ok .int ∧
      e.evalWith (.ofRecord header record) [((.sum, .var "x"), .int 7)] = .ok (.int 7) ∧
      DataType.int.accepts (.int 7) = true := by
  intro header record e
  have inferred : e.infer true header = .ok .int := rfl
  have value : e.evalWith (.ofRecord header record) [((.sum, .var "x"), .int 7)] = .ok (.int 7) := by
    rfl
  have cells : ∀ cell ∈ header.zip record,
      cell.1.datatype.accepts cell.2 = true ∧ (cell.1.datatype = .unknown → cell.2 = .null) := by
    decide
  have results : ∀ call v, (call, v) ∈ [((AggregateKind.sum, Expr.var "x"), Value.int 7)] →
      call.1.builtin.resultType.accepts v = true := by
    intro call v member
    cases List.mem_singleton.mp member
    rfl
  exact ⟨inferred, value, ((infer_strict_sound cells results inferred).2 _ value).1⟩

end StreamQuery
