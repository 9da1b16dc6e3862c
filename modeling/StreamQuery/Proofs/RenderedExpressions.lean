import StreamQuery.Proofs.ReadExpression
import StreamQuery.Proofs.Rendering

/-!
# Renderings of expressions in the grammar

The rendering of a plain expression derives it, within as many levels as it takes. In the other
direction every expression that tokens derive is plain, and its rendering takes no more levels
than the tokens do: a pair of parentheses that the rendering leaves out takes a level too.
-/

namespace StreamQuery

open Grammar

/-! ## Lexical tokens -/

/-- Some tokens that a text has. -/
def Lexical (ts : List Token) : Prop := ∀ t ∈ ts, t.IsLexical

@[simp] theorem lexical_nil : Lexical [] := by
  intro t member
  cases member

@[simp] theorem lexical_cons {t : Token} {ts : List Token} : Lexical (t :: ts) ↔ t.IsLexical ∧ Lexical ts :=
  List.forall_mem_cons

@[simp] theorem lexical_append {ts us : List Token} : Lexical (ts ++ us) ↔ Lexical ts ∧ Lexical us :=
  List.forall_mem_append

@[simp] theorem lexical_parens {needed : Bool} {ts : List Token} : Lexical (parens needed ts) ↔ Lexical ts := by
  cases needed with
  | false => rfl
  | true => simp [parens, Token.IsLexical]

@[simp] theorem lexical_operator (op : BinaryOp) : op.token.IsLexical := by
  rcases op with op | op <;> cases op <;> trivial

theorem isNumber_toString (n : Nat) : IsNumber (toString n) := by
  have digits : ∀ c ∈ Nat.toDigits 10 n, Text.isDigit c = true :=
    fun c member => Nat.isDigit_of_mem_toDigits (by decide) (by decide) member
  rw [Nat.toString_eq_ofList_toDigits]
  cases all : Nat.toDigits 10 n with
  | nil => exact absurd all Nat.toDigits_ne_nil
  | cons first rest =>
    rw [all] at digits
    exact .digits digits

theorem valueOf_toString (n : Nat) : valueOf (toString n) = n := by
  rw [← Parser.numberOf_eq]
  unfold Parser.numberOf
  rw [Nat.toString_eq_ofList_toDigits, String.toList_ofList, ← Nat.ofDigitChars_eq_foldl]
  exact Nat.ofDigitChars_ten_toDigits

theorem isName_kind (k : AggregateKind) : IsName k.name := by
  rw [← String.ofList_toList (s := k.name)]
  cases k with
  | boolOr => exact .word ⟨by decide, List.all_eq_true.mp (by decide)⟩ (by decide +kernel)
  | sum => exact .word ⟨by decide, List.all_eq_true.mp (by decide)⟩ (by decide +kernel)

mutual

theorem lexical_tokens : ∀ {e : Expr}, e.IsPlain → Lexical e.tokens
  | .lit (.int number), _ => by
    have digits : (Token.number (toString number.toNat)).IsLexical := isNumber_toString number.toNat
    exact lexical_cons.mpr ⟨digits, lexical_nil⟩
  | .lit (.bool truth), _ => by simp [Expr.tokens, Token.IsLexical]
  | .lit .null, _ => by simp [Expr.tokens, Token.IsLexical]
  | .rename _ _, plain => by cases plain
  | .var name, plain => by
    have named : IsName name := plain
    simp [Expr.tokens, Token.IsLexical, named]
  | .not operand, plain => by
    have inner := lexical_tokens (e := operand) plain
    simp [Expr.tokens, Token.IsLexical, inner]
  | .binary op left right, plain => by
    have first := lexical_tokens (e := left) plain.1
    have second := lexical_tokens (e := right) plain.2
    simp [Expr.tokens, first, second]
  | .case arms, plain => by
    have inner := lexical_armTokens (a := arms) plain
    simp [Expr.tokens, Token.IsLexical, inner]
  | .call kind argument, plain => by
    have inner := lexical_tokens (e := argument) plain
    simp [Expr.tokens, Token.IsLexical, isName_kind, inner]

theorem lexical_armTokens : ∀ {a : Arms}, a.IsPlain → Lexical a.tokens
  | .done, _ => by simp [Arms.tokens, Token.IsLexical]
  | .otherwise result, plain => by
    have inner := lexical_tokens (e := result) plain
    simp [Arms.tokens, Token.IsLexical, inner]
  | .when condition result rest, plain => by
    have first := lexical_tokens (e := condition) plain.1
    have second := lexical_tokens (e := result) plain.2.1
    have others := lexical_armTokens (a := rest) plain.2.2
    simp [Arms.tokens, Token.IsLexical, first, second, others]

end

/-! ## Renderings derive -/

/-- The rendering of an expression derives it in the layer of its precedence, within as many
    levels as it takes. -/
def Expr.Derives (e : Expr) : Prop :=
  ∀ n, e.levels ≤ n → Layer (Expression n) e.precedence e.tokens e

theorem Expr.Derives.full {e : Expr} (derives : e.Derives) {n : Nat} (enough : e.levels + 1 ≤ n) :
    Expression n 0 e.tokens e := by
  cases n with
  | zero => cases enough
  | succ n => exact Parser.layer_mono (derives n (Nat.le_of_succ_le_succ enough)) (Nat.zero_le _)

/-- An operand derives in the layer of its place, in parentheses where it needs them. -/
theorem Expr.Derives.operand {e : Expr} (derives : e.Derives) {n p : Nat} (place : p ≤ negationPrecedence + 1)
    (enough : levelsIn (e.precedence < p) e.levels ≤ n) :
    Layer (Expression n) p (parens (e.precedence < p) e.tokens) e := by
  by_cases loose : e.precedence < p
  · simp only [loose, decide_true, levelsIn, if_true, parens] at enough ⊢
    exact Parser.layer_mono (.atom (.parens (derives.full enough))) place
  · simp only [loose, decide_false, levelsIn, Bool.false_eq_true, if_false, parens] at enough ⊢
    exact Parser.layer_mono (derives n enough) (Nat.le_of_not_lt loose)

theorem Expr.Derives.inner {e : Expr} (derives : e.Derives) {n p : Nat} (place : p ≤ negationPrecedence + 1)
    (enough : levelsIn (e.precedence < p) e.levels + 1 ≤ n) :
    Expression n p (parens (e.precedence < p) e.tokens) e := by
  cases n with
  | zero => cases enough
  | succ n => exact derives.operand place (Nat.le_of_succ_le_succ enough)

mutual

theorem derives_of_plain : ∀ {e : Expr}, e.IsPlain → e.Derives
  | .lit (.int number), plain => fun n _ => by
    obtain ⟨positive, small⟩ := plain
    have same : (valueOf (toString number.toNat) : Int) = number := by
      rw [valueOf_toString]
      exact Int.toNat_of_nonneg positive
    have fits : valueOf (toString number.toNat) ≤ 9223372036854775807 := by
      unfold maxInt at small
      omega
    have derived : AtomOver (Expression n 0) [.number (toString number.toNat)]
        (.lit (.int (valueOf (toString number.toNat)))) := .number fits
    rw [same] at derived
    exact .atom derived
  | .lit (.bool truth), _ => fun n _ => by
    cases truth with
    | false => exact .atom .false
    | true => exact .atom .true
  | .lit .null, _ => fun n _ => .atom .null
  | .rename _ _, plain => by cases plain
  | .var name, _ => fun n _ => .atom (.column name)
  | .not operand, plain => fun n enough =>
    .not ((derives_of_plain (e := operand) plain).inner (Nat.le_succ _) enough)
  | .binary op left right, plain => fun n enough => by
    obtain ⟨first, second⟩ := Nat.max_le.mp enough
    have bounded := Parser.precedence_lt op
    have left_derives := (derives_of_plain (e := left) plain.1).operand (by omega) first
    have right_derives := (derives_of_plain (e := right) plain.2).inner (by omega) second
    exact .binary (Parser.binds_iff.mpr rfl) left_derives right_derives
  | .case arms, plain => fun n enough => .atom (.case (derives_of_plainArms (a := arms) plain enough))
  | .call kind argument, plain => fun n enough => by
    have inner := (derives_of_plain (e := argument) plain).full enough
    have called : Calls kind.name kind := by
      cases kind with
      | boolOr => exact .boolOr (by decide)
      | sum => exact .sum (by decide)
    exact .atom (.call called inner)

theorem derives_of_plainArms : ∀ {a : Arms}, a.IsPlain → ∀ {n : Nat}, a.levels ≤ n →
    ArmsOver (Expression n 0) a.tokens a
  | .done, _, n, _ => .done
  | .otherwise result, plain, n, enough => .otherwise ((derives_of_plain (e := result) plain).full enough)
  | .when condition result rest, plain, n, enough => by
    obtain ⟨both, others⟩ := Nat.max_le.mp enough
    obtain ⟨first, second⟩ := Nat.max_le.mp both
    exact .when ((derives_of_plain (e := condition) plain.1).full first)
      ((derives_of_plain (e := result) plain.2.1).full second) (derives_of_plainArms (a := rest) plain.2.2 others)

end

/-! ## Derivations render -/

theorem levelsIn_mono {one other : Bool} {levels : Nat} (less : one = true → other = true) :
    levelsIn one levels ≤ levelsIn other levels := by
  cases one with
  | false => cases other <;> simp [levelsIn]
  | true =>
    obtain rfl := less rfl
    exact Nat.le_refl _

theorem levelsIn_le (needed : Bool) (levels : Nat) : levelsIn needed levels ≤ levels + 1 := by
  cases needed <;> simp [levelsIn]

/-- What is derived within so many levels at a place is plain, and its rendering at that place
    takes no more levels. -/
def Bounded (n p : Nat) (e : Expr) : Prop := e.IsPlain ∧ levelsIn (e.precedence < p) e.levels ≤ n

section Layers

variable {n : Nat} {full : Derivation Expr}

theorem arms_bounded (inside : ∀ {ts : List Token} {e : Expr}, full ts e → Lexical ts → e.IsPlain ∧ e.levels + 1 ≤ n)
    {ts : List Token} {a : Arms} (derived : ArmsOver full ts a) (lexical : Lexical ts) :
    a.IsPlain ∧ a.levels ≤ n := by
  induction derived with
  | done => exact ⟨trivial, Nat.zero_le _⟩
  | otherwise derived =>
    simp only [List.cons_append, lexical_cons, lexical_append] at lexical
    exact inside derived lexical.2.1
  | @when cs rs ts condition result rest test value others ih =>
    simp only [List.cons_append, lexical_cons, lexical_append, List.append_assoc] at lexical
    obtain ⟨_, first, _, second, later⟩ := lexical
    obtain ⟨plain₁, levels₁⟩ := inside test first
    obtain ⟨plain₂, levels₂⟩ := inside value second
    obtain ⟨plain₃, levels₃⟩ := ih later
    exact ⟨⟨plain₁, plain₂, plain₃⟩, Nat.max_le.mpr ⟨Nat.max_le.mpr ⟨levels₁, levels₂⟩, levels₃⟩⟩

theorem atom_bounded (inside : ∀ {ts : List Token} {e : Expr}, full ts e → Lexical ts → e.IsPlain ∧ e.levels + 1 ≤ n)
    {ts : List Token} {e : Expr} (derived : AtomOver full ts e) (lexical : Lexical ts) :
    Bounded n (negationPrecedence + 1) e := by
  have tight : ∀ {e : Expr}, e.precedence = negationPrecedence + 1 → e.IsPlain → e.levels ≤ n →
      Bounded n (negationPrecedence + 1) e := by
    intro e precedence plain levels
    refine ⟨plain, ?_⟩
    rw [precedence]
    exact levels
  cases derived with
  | number fits => exact tight rfl ⟨Int.natCast_nonneg _, Int.ofNat_le.mpr fits⟩ (Nat.zero_le _)
  | true => exact tight rfl trivial (Nat.zero_le _)
  | false => exact tight rfl trivial (Nat.zero_le _)
  | null => exact tight rfl trivial (Nat.zero_le _)
  | column name => exact tight rfl (lexical_cons.mp lexical).1 (Nat.zero_le _)
  | call named derived =>
    simp only [List.cons_append, lexical_cons, lexical_append] at lexical
    obtain ⟨plain, levels⟩ := inside derived lexical.2.2.1
    exact tight rfl plain levels
  | case derived =>
    obtain ⟨plain, levels⟩ := arms_bounded inside derived (lexical_cons.mp lexical).2
    exact tight rfl plain levels
  | parens derived =>
    simp only [List.cons_append, lexical_cons, lexical_append] at lexical
    obtain ⟨plain, levels⟩ := inside derived lexical.2.1
    exact ⟨plain, Nat.le_trans (levelsIn_le _ _) levels⟩

theorem layer_bounded {inner : Nat → Derivation Expr}
    (inside : ∀ {p : Nat} {ts : List Token} {e : Expr}, inner p ts e → Lexical ts →
      e.IsPlain ∧ levelsIn (e.precedence < p) e.levels + 1 ≤ n)
    {p : Nat} {ts : List Token} {e : Expr} (derived : Layer inner p ts e) (lexical : Lexical ts) :
    Bounded n p e := by
  induction derived with
  | @binary op p ls rs left right binds first second ih =>
    obtain rfl := Parser.binds_iff.mp binds
    simp only [lexical_append, lexical_cons] at lexical
    obtain ⟨plain₁, levels₁⟩ := ih lexical.1
    obtain ⟨plain₂, levels₂⟩ := inside second lexical.2.2
    refine ⟨⟨plain₁, plain₂⟩, ?_⟩
    simp only [Expr.precedence, Nat.lt_irrefl, decide_false, levelsIn, Bool.false_eq_true, if_false]
    exact Nat.max_le.mpr ⟨levels₁, levels₂⟩
  | not derived =>
    obtain ⟨plain, levels⟩ := inside derived (lexical_cons.mp lexical).2
    refine ⟨plain, ?_⟩
    simp only [Expr.precedence, negationPrecedence, Nat.lt_irrefl, decide_false, levelsIn, Bool.false_eq_true, if_false]
    exact levels
  | atom derived =>
    refine atom_bounded (fun inner lexical => ?_) derived lexical
    obtain ⟨plain, levels⟩ := inside inner lexical
    exact ⟨plain, by simpa [levelsIn] using levels⟩
  | @tighter p ts e derived ih =>
    obtain ⟨plain, levels⟩ := ih lexical
    refine ⟨plain, Nat.le_trans (levelsIn_mono fun loose => ?_) levels⟩
    rw [decide_eq_true_eq] at loose ⊢
    exact Nat.lt_succ_of_lt loose

end Layers

/-- What tokens derive within so many levels is plain, and its rendering takes no more. -/
theorem expression_bounded (n : Nat) : ∀ {p : Nat} {ts : List Token} {e : Expr}, Expression n p ts e →
    Lexical ts → e.IsPlain ∧ levelsIn (e.precedence < p) e.levels + 1 ≤ n := by
  induction n with
  | zero => exact fun derived => derived.elim
  | succ n ih =>
    intro p ts e derived lexical
    obtain ⟨plain, levels⟩ := layer_bounded ih derived lexical
    exact ⟨plain, Nat.succ_le_succ levels⟩

theorem full_bounded {n : Nat} {ts : List Token} {e : Expr} (derived : Expression n 0 ts e) (lexical : Lexical ts) :
    e.IsPlain ∧ e.levels + 1 ≤ n := by
  obtain ⟨plain, levels⟩ := expression_bounded n derived lexical
  exact ⟨plain, by simpa [levelsIn] using levels⟩

end StreamQuery
