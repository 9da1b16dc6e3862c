import Mathlib.Data.List.Induction
import StreamQuery.Proofs.LetterCase
import StreamQuery.Proofs.Reading

/-!
# Reading expressions by precedence

The chains of operands read the layers of the grammar. Behind a chain no operator of it can
follow, so the precedences of the operators in a chain never rise: that is why its operators
group to the left as the layers do. In the other direction a layer is read by every chain that
takes its operators, up to the same place.
-/

namespace StreamQuery.Parser

open Grammar

/-! ## Operators -/

theorem operator?_eq_some {t : Token} {op : BinaryOp} : operator? t = some op ↔ t = op.token := by
  constructor
  · intro same
    cases t <;> cases same <;> rfl
  · rintro rfl
    rcases op with op | op <;> cases op <;> rfl

theorem operatorFrom?_eq_some {min : Nat} {t : Token} {op : BinaryOp} :
    operatorFrom? min t = some op ↔ t = op.token ∧ min ≤ op.precedence := by
  unfold operatorFrom?
  rw [Option.filter_eq_some_iff, operator?_eq_some, decide_eq_true_eq]

/-- The tighter an operator binds, the less it ends. -/
theorem rank_operator (op : BinaryOp) : op.token.rank + op.precedence = negationPrecedence := by
  rcases op with op | op <;> cases op <;> rfl

theorem precedence_lt (op : BinaryOp) : op.precedence < negationPrecedence := by
  cases op with
  | compare comparison =>
    have order := BinaryOp.precedence_order comparison
    omega
  | arith op =>
    have order := BinaryOp.precedence_order .eq
    cases op <;> omega

/-- The layers of the operators are their precedences. -/
theorem binds_iff {op : BinaryOp} {p : Nat} : Binds op p ↔ p = op.precedence := by
  constructor
  · intro binds
    cases binds <;> rfl
  · rintro rfl
    rcases op with op | op
    · cases op with
      | add => exact .add
      | sub => exact .sub
      | mul => exact .mul
      | div => exact .div
    · exact .comparison op

/-- NOT is taken by every chain whose operators bind no tighter. -/
theorem negationFrom?_eq {min : Nat} (bounded : min ≤ negationPrecedence) :
    negationFrom? min = exactly (.keyword .NOT) := by
  funext t
  unfold negationFrom?
  rw [decide_eq_true bounded]
  cases exactly (.keyword .NOT) t <;> rfl

/-- The rank that has to be behind an expression of a layer. -/
def stopRank (p : Nat) : Nat := negationPrecedence + 1 - p

theorem no_operator {i : Input} {min : Nat} (bounded : min ≤ negationPrecedence) (enough : stopRank min ≤ i.rank) :
    i.token?.bind (operatorFrom? min) = none := by
  cases next : i.token? with
  | none => rfl
  | some t =>
    rw [Option.bind_some]
    cases given : operatorFrom? min t with
    | none => rfl
    | some op =>
      obtain ⟨rfl, tight⟩ := operatorFrom?_eq_some.mp given
      rw [Input.rank_of_token next] at enough
      have rank := rank_operator op
      unfold stopRank at enough
      omega

/-! ## Operands -/

section Operands

variable {depth : Nat} {full : Derivation Expr} {inner : Parser Expr}

/-- An arm of a CASE behind its WHEN. -/
def Arm (full : Derivation Expr) : Derivation (Expr × Expr) := fun ts arm =>
  ∃ cs rs, ts = cs ++ .keyword .THEN :: rs ∧ full cs arm.1 ∧ full rs arm.2

/-- The arms of a CASE are repeated arms and then the result behind ELSE. -/
theorem armsOver_iff {ts : List Token} {arms : Arms} :
    ArmsOver full ts arms ↔ ∃ bs fs branches final, ts = bs ++ fs ++ [.keyword .END] ∧
      Repeated [.keyword .WHEN] (Arm full) bs branches ∧ Clause [.keyword .ELSE] full fs final ∧
      arms = .ofBranches branches final := by
  constructor
  · intro derived
    induction derived with
    | done => exact ⟨[], [], [], none, rfl, .nil, .absent, rfl⟩
    | otherwise derived => exact ⟨[], _, [], some _, rfl, .nil, .present derived, rfl⟩
    | @when cs rs ts condition result rest test value others ih =>
      obtain ⟨bs, fs, branches, final, rfl, repeated, otherwise, rfl⟩ := ih
      refine ⟨_, fs, (condition, result) :: branches, final, ?_, .cons ⟨cs, rs, rfl, test, value⟩ repeated,
        otherwise, rfl⟩
      simp
  · rintro ⟨bs, fs, branches, final, rfl, repeated, otherwise, rfl⟩
    induction repeated with
    | nil =>
      cases otherwise with
      | absent => exact .done
      | present derived => exact .otherwise derived
    | @cons first rest arm others head tail ih =>
      obtain ⟨cs, rs, rfl, test, value⟩ := head
      have derived := ArmsOver.when test value ih
      simpa [Arms.ofBranches] using derived

theorem reads_arm (reads : inner.Reads depth (stopRank 0) full) :
    (do
      let condition ← inner
      expect (.keyword .THEN)
      let result ← inner
      return (condition, result)).Reads depth (stopRank 0) (Behind [] (Arm full)) := by
  refine ⟨fun {i rest arm} at_ read => ?_, fun {i rest ts arm} at_ derived begins enough => ?_⟩
  · obtain ⟨condition, m₁, first, read⟩ := run_bind_ok.mp read
    obtain ⟨_, m₂, word, read⟩ := run_bind_ok.mp read
    obtain ⟨result, m₃, second, read⟩ := run_bind_ok.mp read
    obtain ⟨rfl, rfl⟩ := run_pure_ok.mp read
    obtain ⟨cs, test, begins₁⟩ := reads.sound at_ first
    have at₁ := (Input.begins_depth begins₁).trans at_
    have begins₂ := run_expect.mp word
    obtain ⟨rs, value, begins₃⟩ := reads.sound ((Input.begins_depth begins₂).trans at₁) second
    have whole : i.Begins (cs ++ ([.keyword .THEN] ++ rs)) m₃ :=
      Input.begins_append.mpr ⟨m₁, begins₁, Input.begins_append.mpr ⟨m₂, begins₂, begins₃⟩⟩
    exact ⟨_, ⟨_, rfl, cs, rs, rfl, test, value⟩, whole⟩
  · obtain ⟨_, rfl, cs, rs, rfl, test, value⟩ := derived
    obtain ⟨m₁, begins₁, next, begins₂⟩ := Input.begins_append.mp begins
    have at₁ := (Input.begins_depth begins₁).trans at_
    have stop : stopRank 0 ≤ m₁.rank := by
      rw [Input.rank_of_token next]
      decide
    refine run_bind_ok.mpr ⟨arm.1, m₁, reads.complete at_ test begins₁ stop, ?_⟩
    refine run_bind_ok.mpr ⟨(), m₁.tail, run_expect.mpr ⟨next, rfl⟩, ?_⟩
    exact run_bind_ok.mpr ⟨arm.2, rest, reads.complete (i := m₁.tail) at₁ value begins₂ enough,
      run_pure_ok.mpr ⟨rfl, rfl⟩⟩

theorem run_caseArms {i rest : Input} {arms : Arms} :
    (caseArms inner).run i = .ok arms rest ↔ ∃ branches m₁ final m₂,
      (many (exactly (.keyword .WHEN)) fun _ => do
        let condition ← inner
        expect (.keyword .THEN)
        let result ← inner
        return (condition, result)).run i = .ok branches m₁ ∧
      (clause .ELSE inner).run m₁ = .ok final m₂ ∧ m₂.Begins [.keyword .END] rest ∧
      arms = .ofBranches branches final := by
  constructor
  · intro read
    obtain ⟨branches, m₁, first, read⟩ := run_bind_ok.mp read
    obtain ⟨found, m₂, word, read⟩ := run_bind_ok.mp read
    cases found with
    | false =>
      obtain ⟨final, m₃, none_, read⟩ := run_bind_ok.mp read
      obtain ⟨_, m₄, last, read⟩ := run_bind_ok.mp read
      obtain ⟨rfl, rfl⟩ := run_pure_ok.mp read
      exact ⟨branches, m₁, final, m₃, first, run_bind_ok.mpr ⟨false, m₂, word, none_⟩, run_expect.mp last, rfl⟩
    | true =>
      obtain ⟨final, m₃, some_, read⟩ := run_bind_ok.mp read
      obtain ⟨_, m₄, last, read⟩ := run_bind_ok.mp read
      obtain ⟨rfl, rfl⟩ := run_pure_ok.mp read
      exact ⟨branches, m₁, final, m₃, first, run_bind_ok.mpr ⟨true, m₂, word, some_⟩, run_expect.mp last, rfl⟩
  · rintro ⟨branches, m₁, final, m₃, first, read, last, rfl⟩
    obtain ⟨found, m₂, word, read⟩ := run_bind_ok.mp read
    refine run_bind_ok.mpr ⟨branches, m₁, first, run_bind_ok.mpr ⟨found, m₂, word, ?_⟩⟩
    cases found with
    | false =>
      exact run_bind_ok.mpr ⟨final, m₃, read, run_bind_ok.mpr ⟨(), rest, run_expect.mpr last,
        run_pure_ok.mpr ⟨rfl, rfl⟩⟩⟩
    | true =>
      exact run_bind_ok.mpr ⟨final, m₃, read, run_bind_ok.mpr ⟨(), rest, run_expect.mpr last,
        run_pure_ok.mpr ⟨rfl, rfl⟩⟩⟩

theorem reads_caseArms (reads : inner.Reads depth (stopRank 0) full) :
    (caseArms inner).Reads depth 0 (ArmsOver full) := by
  have arms := reads_many (t := .keyword .WHEN) (reads_arm reads) (by decide)
  have otherwise : (clause .ELSE inner).Reads depth 7 (Clause [.keyword .ELSE] full) :=
    reads_optional (reads.mono (by decide)) (by decide)
  refine ⟨fun {i rest found} at_ read => ?_, fun {i rest ts found} at_ derived begins enough => ?_⟩
  · obtain ⟨branches, m₁, final, m₂, first, second, last, rfl⟩ := run_caseArms.mp read
    obtain ⟨bs, repeated, begins₁⟩ := arms.sound at_ first
    obtain ⟨fs, final_derived, begins₂⟩ := otherwise.sound ((Input.begins_depth begins₁).trans at_) second
    exact ⟨_, armsOver_iff.mpr ⟨bs, fs, branches, final, rfl, repeated, final_derived, rfl⟩,
      Input.begins_append.mpr ⟨m₂, Input.begins_append.mpr ⟨m₁, begins₁, begins₂⟩, last⟩⟩
  · obtain ⟨bs, fs, branches, final, rfl, repeated, final_derived, rfl⟩ := armsOver_iff.mp derived
    obtain ⟨m₂, begins, last⟩ := Input.begins_append.mp begins
    obtain ⟨m₁, begins₁, begins₂⟩ := Input.begins_append.mp begins
    have stop₂ : 7 ≤ m₂.rank := by
      rw [Input.rank_of_token last.1]
      decide
    have stop₁ : 6 ≤ m₁.rank := rank_of_clause final_derived begins₂ (by decide) (Nat.le_of_succ_le stop₂)
    exact run_caseArms.mpr ⟨branches, m₁, final, m₂, arms.complete at_ repeated begins₁ stop₁,
      otherwise.complete ((Input.begins_depth begins₁).trans at_) final_derived begins₂ stop₂, last, rfl⟩

theorem numberOf_eq (digits : String) : numberOf digits = valueOf digits := by
  unfold numberOf valueOf
  generalize digits.toList = cs
  induction cs using List.reverseRecOn with
  | nil => rfl
  | append_singleton cs c ih =>
    rw [List.foldl_append, List.foldl_cons, List.foldl_nil, ih, List.reverse_concat, List.map_cons,
      Nat.ofDigits_cons, Nat.add_comm]

theorem run_integer {position : Position} {digits : String} {i rest : Input} {e : Expr} :
    (integer position digits).run i = .ok e rest ↔
      valueOf digits ≤ 9223372036854775807 ∧ e = .lit (.int (valueOf digits)) ∧ rest = i := by
  have range : inRange (valueOf digits) = true ↔ valueOf digits ≤ 9223372036854775807 := by
    rw [inRange_iff, minInt, maxInt]
    omega
  unfold integer
  rw [numberOf_eq]
  by_cases fits : inRange (valueOf digits) = true
  · rw [if_pos fits, run_pure_ok, ← range]
    constructor
    · rintro ⟨rfl, rfl⟩
      exact ⟨fits, rfl, rfl⟩
    · rintro ⟨_, rfl, rfl⟩
      exact ⟨rfl, rfl⟩
  · rw [if_neg fits, ← range]
    constructor
    · intro read
      cases read
    · rintro ⟨absurd, _⟩
      exact (fits absurd).elim

theorem calls_iff {word : String} {kind : AggregateKind} : Calls word kind ↔ Aggregate.ofCall? word = some kind := by
  rw [ofCall?_eq_some]
  constructor
  · intro called
    cases called with
    | boolOr letters => exact letters
    | sum letters => exact letters
  · intro letters
    cases kind with
    | boolOr => exact .boolOr letters
    | sum => exact .sum letters

theorem run_callArgument {position : Position} {word : String} {i rest : Input} {e : Expr} :
    (callArgument inner position word).run i = .ok e rest ↔ ∃ kind, Calls word kind ∧ (do
        let argument ← inner
        expect .closeParen
        return Expr.call kind argument).run i = .ok e rest := by
  unfold callArgument
  constructor
  · intro read
    cases called : Aggregate.ofCall? word with
    | none =>
      rw [called] at read
      cases read
    | some kind =>
      rw [called] at read
      exact ⟨kind, calls_iff.mpr called, read⟩
  · rintro ⟨kind, called, read⟩
    rw [calls_iff.mp called]
    exact read

theorem reads_atom (reads : inner.Reads depth (stopRank 0) full) : (atom inner).Reads depth 1 (AtomOver full) := by
  have closed : ∀ {β : Type} (f : Expr → β), _ := fun f => reads_closed f reads (by decide)
  refine ⟨fun {i rest e} at_ read => ?_, fun {i rest ts e} at_ derived begins enough => ?_⟩
  · obtain ⟨⟨position, t⟩, m, first, read⟩ := run_bind_ok.mp read
    obtain ⟨head, rfl⟩ := run_next.mp first
    have token : i.token? = some t := by rw [Input.token?, head]; rfl
    cases t with
    | number digits =>
      obtain ⟨fits, rfl, rfl⟩ := run_integer.mp read
      exact ⟨_, .number fits, token, rfl⟩
    | keyword k =>
      cases k with
      | TRUE =>
        obtain ⟨rfl, rfl⟩ := run_pure_ok.mp read
        exact ⟨_, .true, token, rfl⟩
      | FALSE =>
        obtain ⟨rfl, rfl⟩ := run_pure_ok.mp read
        exact ⟨_, .false, token, rfl⟩
      | NULL =>
        obtain ⟨rfl, rfl⟩ := run_pure_ok.mp read
        exact ⟨_, .null, token, rfl⟩
      | CASE =>
        obtain ⟨arms, inside, rfl⟩ := run_map_ok.mp read
        obtain ⟨ts, derived, begins⟩ := (reads_caseArms reads).sound (i := i.tail) at_ inside
        exact ⟨_, .case derived, token, begins⟩
      | _ => cases read
    | ident name =>
      obtain ⟨found, m, word, read⟩ := run_bind_ok.mp read
      rcases run_accept.mp word with ⟨rfl, paren, rfl⟩ | ⟨rfl, _, rfl⟩
      · obtain ⟨kind, called, read⟩ := run_callArgument.mp read
        obtain ⟨_, ⟨us, argument, rfl, derived, rfl⟩, begins⟩ :=
          (closed (Expr.call kind)).sound (i := i.tail.tail) at_ read
        exact ⟨_, .call called derived, token, paren, begins⟩
      · obtain ⟨rfl, rfl⟩ := run_pure_ok.mp read
        exact ⟨_, .column name, token, rfl⟩
    | openParen =>
      obtain ⟨_, ⟨us, inside, rfl, derived, rfl⟩, begins⟩ := (closed id).sound (i := i.tail) at_ read
      exact ⟨_, .parens derived, token, begins⟩
    | _ => cases read
  · have start : ∀ {t : Token} {us : List Token}, ts = t :: us → ∃ position,
        i.lexemes.head? = some ⟨position, t⟩ ∧ i.tail.Begins us rest := by
      rintro t us rfl
      obtain ⟨⟨position, u⟩, head, rfl⟩ := Option.map_eq_some_iff.mp begins.1
      exact ⟨position, head, begins.2⟩
    cases derived with
    | number fits =>
      obtain ⟨position, head, same⟩ := start rfl
      exact run_bind_ok.mpr ⟨_, _, run_next.mpr ⟨head, rfl⟩, run_integer.mpr ⟨fits, rfl, same⟩⟩
    | true =>
      obtain ⟨position, head, same⟩ := start rfl
      exact run_bind_ok.mpr ⟨_, _, run_next.mpr ⟨head, rfl⟩, run_pure_ok.mpr ⟨rfl, same.symm⟩⟩
    | false =>
      obtain ⟨position, head, same⟩ := start rfl
      exact run_bind_ok.mpr ⟨_, _, run_next.mpr ⟨head, rfl⟩, run_pure_ok.mpr ⟨rfl, same.symm⟩⟩
    | null =>
      obtain ⟨position, head, same⟩ := start rfl
      exact run_bind_ok.mpr ⟨_, _, run_next.mpr ⟨head, rfl⟩, run_pure_ok.mpr ⟨rfl, same.symm⟩⟩
    | column name =>
      obtain ⟨position, head, same⟩ := start rfl
      have no_call : i.tail.token? ≠ some .openParen := by
        rw [← show rest = i.tail from same]
        exact Input.token_ne Nat.zero_lt_one enough
      refine run_bind_ok.mpr ⟨_, _, run_next.mpr ⟨head, rfl⟩, ?_⟩
      exact run_bind_ok.mpr ⟨false, i.tail, run_accept.mpr (.inr ⟨rfl, no_call, rfl⟩),
        run_pure_ok.mpr ⟨rfl, same.symm⟩⟩
    | @call word kind us argument called derived =>
      obtain ⟨position, head, paren, begins⟩ := start rfl
      refine run_bind_ok.mpr ⟨_, _, run_next.mpr ⟨head, rfl⟩, ?_⟩
      refine run_bind_ok.mpr ⟨true, i.tail.tail, run_accept.mpr (.inl ⟨rfl, paren, rfl⟩), ?_⟩
      exact run_callArgument.mpr ⟨kind, called, (closed (Expr.call kind)).complete (i := i.tail.tail) at_
        ⟨us, argument, rfl, derived, rfl⟩ begins (Nat.zero_le _)⟩
    | case derived =>
      obtain ⟨position, head, begins⟩ := start rfl
      refine run_bind_ok.mpr ⟨_, _, run_next.mpr ⟨head, rfl⟩, run_map_ok.mpr ⟨_, ?_, rfl⟩⟩
      exact (reads_caseArms reads).complete (i := i.tail) at_ derived begins (Nat.zero_le _)
    | parens derived =>
      obtain ⟨position, head, begins⟩ := start rfl
      refine run_bind_ok.mpr ⟨_, _, run_next.mpr ⟨head, rfl⟩, ?_⟩
      exact (closed id).complete (i := i.tail) at_ ⟨_, e, rfl, derived, rfl⟩ begins (Nat.zero_le _)

end Operands

/-! ## Chains -/

/-- A layer holds what any tighter one holds. -/
theorem layer_mono {inner : Nat → Derivation Expr} {p q : Nat} {ts : List Token} {e : Expr}
    (derived : Layer inner q ts e) (looser : p ≤ q) : Layer inner p ts e := by
  obtain ⟨distance, rfl⟩ := Nat.exists_eq_add_of_le looser
  induction distance with
  | zero => exact derived
  | succ distance ih => exact ih (.tighter derived) (Nat.le_add_right p distance)

section Chains

variable {depth : Nat} {inner : Nat → Derivation Expr} {chainAt : Nat → Parser Expr}

/-- What a chain does behind its first operands, with what they make so far. -/
def loop (chainAt : Nat → Parser Expr) (min : Nat) (left : Expr) : Parser Expr := do
  let others ← many (operatorFrom? min) fun op => (op, ·) <$> chainAt (op.precedence + 1)
  return others.foldl (fun left (op, right) => .binary op left right) left

theorem run_loop {min : Nat} {left e : Expr} {i rest : Input} :
    (loop chainAt min left).run i = .ok e rest ↔ ∃ others : List (BinaryOp × Expr),
      (many (operatorFrom? min) fun op => (op, ·) <$> chainAt (op.precedence + 1)).run i = .ok others rest ∧
        e = others.foldl (fun left (op, right) => .binary op left right) left := by
  constructor
  · intro read
    obtain ⟨others, middle, first, last⟩ := run_bind_ok.mp read
    obtain ⟨rfl, rfl⟩ := run_pure_ok.mp last
    exact ⟨others, first, rfl⟩
  · rintro ⟨others, first, rfl⟩
    exact run_bind_ok.mpr ⟨others, rest, first, run_pure_ok.mpr ⟨rfl, rfl⟩⟩

theorem run_loop_stop {min : Nat} {left : Expr} {i : Input} (stop : i.token?.bind (operatorFrom? min) = none) :
    (loop chainAt min left).run i = .ok left i :=
  run_loop.mpr ⟨[], run_many.mpr (.inl ⟨rfl, rfl, stop⟩), rfl⟩

theorem run_loop_step {min : Nat} {op : BinaryOp} {left right e : Expr} {i middle rest : Input}
    (next : i.token? = some op.token) (tight : min ≤ op.precedence)
    (operand : (chainAt (op.precedence + 1)).run i.tail = .ok right middle)
    (later : (loop chainAt min (.binary op left right)).run middle = .ok e rest) :
    (loop chainAt min left).run i = .ok e rest := by
  obtain ⟨others, read, rfl⟩ := run_loop.mp later
  refine run_loop.mpr ⟨(op, right) :: others, run_many.mpr (.inr ?_), rfl⟩
  exact ⟨op.token, op, (op, right), others, middle, operatorFrom?_eq_some.mpr ⟨rfl, tight⟩, next,
    run_map_ok.mpr ⟨right, operand, rfl⟩, read, rfl⟩

theorem run_chain {min : Nat} {i rest : Input} {e : Expr} :
    (chain chainAt min).run i = .ok e rest ↔ ∃ first middle, (operand chainAt min).run i = .ok first middle ∧
      (loop chainAt min first).run middle = .ok e rest :=
  run_bind_ok

/-- An operand is NOT with an operand of its own, or an atom. -/
theorem run_operand {min : Nat} (bounded : min ≤ negationPrecedence) {i rest : Input} {e : Expr} :
    (operand chainAt min).run i = .ok e rest ↔
      i.token? = some (.keyword .NOT) ∧ (Expr.not <$> chainAt negationPrecedence).run i.tail = .ok e rest ∨
      i.token? ≠ some (.keyword .NOT) ∧ (atom (chainAt 0)).run i = .ok e rest := by
  unfold operand
  rw [negationFrom?_eq bounded, run_bind_ok]
  constructor
  · rintro ⟨found, middle, word, last⟩
    rcases run_accept?_ok.mp word with ⟨t, _, given, rfl, next, rfl⟩ | ⟨rfl, other, rfl⟩
    · rw [exactly_eq_some.mp given] at next
      exact .inl ⟨next, last⟩
    · exact .inr ⟨exactly_bind.mp other, last⟩
  · rintro (⟨next, last⟩ | ⟨other, last⟩)
    · exact ⟨some (), i.tail, run_accept?_ok.mpr (.inl ⟨_, (), exactly_eq_some.mpr rfl, rfl, next, rfl⟩), last⟩
    · exact ⟨none, i, run_accept?_ok.mpr (.inr ⟨rfl, exactly_bind.mpr other, rfl⟩), last⟩

/-- The chains inside read the layers inside, and stop before every operator of theirs. -/
structure ReadsLayers (depth : Nat) (chainAt : Nat → Parser Expr) (inner : Nat → Derivation Expr) : Prop where
  reads : ∀ p ≤ negationPrecedence, (chainAt p).Reads depth (stopRank p) (inner p)
  stops : ∀ {p : Nat} {i rest : Input} {e : Expr}, (chainAt p).run i = .ok e rest →
    rest.token?.bind (operatorFrom? p) = none

theorem not_begins_not {ts : List Token} {e : Expr} {full : Derivation Expr} {i rest : Input}
    (derived : AtomOver full ts e) (begins : i.Begins ts rest) : i.token? ≠ some (.keyword .NOT) := by
  intro next
  cases derived <;> cases next.symm.trans begins.1

theorem chain_stops {min : Nat} {i rest : Input} {e : Expr} (read : (chain chainAt min).run i = .ok e rest) :
    rest.token?.bind (operatorFrom? min) = none := by
  obtain ⟨first, middle, _, later⟩ := run_chain.mp read
  obtain ⟨others, repeated, _⟩ := run_loop.mp later
  exact many_stops repeated

variable (inside : ReadsLayers depth chainAt inner)

include inside

theorem operand_sound {min : Nat} (bounded : min ≤ negationPrecedence) {i rest : Input} {e : Expr}
    (at_ : i.depth = depth) (read : (operand chainAt min).run i = .ok e rest) :
    ∃ ts, Layer inner negationPrecedence ts e ∧ i.Begins ts rest := by
  rcases (run_operand bounded).mp read with ⟨next, last⟩ | ⟨_, last⟩
  · obtain ⟨negated, operand, rfl⟩ := run_map_ok.mp last
    obtain ⟨ts, derived, begins⟩ :=
      (inside.reads negationPrecedence (Nat.le_refl _)).sound (i := i.tail) at_ operand
    exact ⟨_, .not derived, next, begins⟩
  · obtain ⟨ts, derived, begins⟩ := (reads_atom (inside.reads 0 (Nat.zero_le _))).sound at_ last
    exact ⟨ts, .tighter (.atom derived), begins⟩

/-- What is read so far is of the layer `q`, and no tighter operator comes next. The next operator
    makes it of its own layer, and again no tighter operator can follow. -/
theorem loop_sound {min q : Nat} {left e : Expr} {start i rest : Input} {ls : List Token}
    (at_ : start.depth = depth) (derived : Layer inner q ls left) (begins : start.Begins ls i) (low : min ≤ q)
    (falls : ∀ op : BinaryOp, i.token? = some op.token → op.precedence ≤ q)
    (read : (loop chainAt min left).run i = .ok e rest) :
    ∃ ts, Layer inner min ts e ∧ start.Begins ts rest := by
  obtain ⟨others, repeated, rfl⟩ := run_loop.mp read
  clear read
  induction others generalizing q left i ls with
  | nil =>
    rcases run_many.mp repeated with ⟨_, rfl, _⟩ | ⟨_, _, _, _, _, _, _, _, _, absurd⟩
    · exact ⟨ls, layer_mono derived low, begins⟩
    · cases absurd
  | cons other others ih =>
    rcases run_many.mp repeated with ⟨absurd, _⟩ | ⟨t, op, _, _, middle, given, next, first, later, split⟩
    · cases absurd
    cases split
    obtain ⟨rfl, tight⟩ := operatorFrom?_eq_some.mp given
    obtain ⟨right, operand, rfl⟩ := run_map_ok.mp first
    have bounded : op.precedence + 1 ≤ negationPrecedence := precedence_lt op
    have at_i : i.depth = depth := (Input.begins_depth begins).trans at_
    obtain ⟨rs, second, begins₂⟩ := (inside.reads _ bounded).sound (i := i.tail) at_i operand
    have layered : Layer inner op.precedence (ls ++ op.token :: rs) (.binary op left right) :=
      .binary (binds_iff.mpr rfl) (layer_mono derived (falls op next)) second
    refine ih layered (Input.begins_append.mpr ⟨i, begins, next, begins₂⟩) tight (fun op' next' => ?_) later
    -- A tighter operator would have been read with the operand before it.
    refine Nat.le_of_not_lt fun higher => ?_
    have stop := inside.stops operand
    rw [next', Option.bind_some, operatorFrom?_eq_some.mpr ⟨rfl, higher⟩] at stop
    cases stop

/-- A layer is read up to its end by every chain that takes its operators: what the chain does is
    what its loop does behind the layer. -/
theorem chain_of_layer {min p : Nat} (bounded : min ≤ negationPrecedence) {ts : List Token} {e found : Expr}
    {i middle rest : Input}
    (derived : Layer inner p ts e) (at_ : i.depth = depth) (begins : i.Begins ts middle) (low : min ≤ p)
    (call : 1 ≤ middle.rank) (stop : negationPrecedence ≤ middle.rank + p)
    (later : (loop chainAt min e).run middle = .ok found rest) : (chain chainAt min).run i = .ok found rest := by
  -- The innermost operand is on the left: each operator on the way out is one more round of the loop.
  induction derived generalizing i middle found with
  | @binary op _ ls rs left right binds first second ih =>
    obtain rfl := binds_iff.mp binds
    obtain ⟨m, begins₁, next, begins₂⟩ := Input.begins_append.mp begins
    have rank := rank_operator op
    have bounded := precedence_lt op
    have at_m : m.depth = depth := (Input.begins_depth begins₁).trans at_
    have enough : stopRank (op.precedence + 1) ≤ middle.rank := by
      unfold stopRank
      omega
    have operand := (inside.reads _ bounded).complete (i := m.tail) at_m second begins₂ enough
    refine ih at_ begins₁ low ?_ ?_ (run_loop_step next low operand later)
    · rw [Input.rank_of_token next]
      omega
    · rw [Input.rank_of_token next]
      omega
  | @not ts operand derived =>
    have enough : stopRank negationPrecedence ≤ middle.rank := call
    have negated := (inside.reads negationPrecedence (Nat.le_refl _)).complete (i := i.tail) at_ derived begins.2 enough
    exact run_chain.mpr ⟨.not operand, middle,
      (run_operand low).mpr (.inl ⟨begins.1, run_map_ok.mpr ⟨operand, negated, rfl⟩⟩), later⟩
  | @atom ts e derived =>
    have read := (reads_atom (inside.reads 0 (Nat.zero_le _))).complete at_ derived begins call
    exact run_chain.mpr ⟨e, middle, (run_operand bounded).mpr (.inr ⟨not_begins_not derived begins, read⟩), later⟩
  | tighter _ ih => exact ih at_ begins (Nat.le_succ_of_le low) call (Nat.le_succ_of_le stop) later

theorem reads_chain {min : Nat} (bounded : min ≤ negationPrecedence) :
    (chain chainAt min).Reads depth (stopRank min) (Layer inner min) := by
  refine ⟨fun {i rest e} at_ read => ?_, fun {i rest ts e} at_ derived begins enough => ?_⟩
  · obtain ⟨first, middle, operand, later⟩ := run_chain.mp read
    obtain ⟨ts, derived, begins⟩ := operand_sound inside bounded at_ operand
    exact loop_sound inside at_ derived begins bounded (fun op _ => Nat.le_of_lt (precedence_lt op)) later
  · have stop := no_operator bounded enough
    unfold stopRank at enough
    exact chain_of_layer inside bounded derived at_ begins (Nat.le_refl min) (by omega) (by omega) (run_loop_stop stop)

end Chains

theorem reads_within (levels : Nat) : ∀ depth, ReadsLayers depth (within chain levels) (Expression levels) := by
  induction levels with
  | zero =>
    intro depth
    refine ⟨fun p _ => ⟨fun _ read => ?_, fun _ derived => derived.elim⟩, fun read => ?_⟩
    · cases read
    · cases read
  | succ levels ih =>
    intro depth
    have inside := ih (depth + 1)
    refine ⟨fun p bounded => reads_deeper (reads_chain inside bounded), fun {p i rest e} read => ?_⟩
    obtain ⟨last, deep, rfl⟩ := run_deeper.mp read
    have stop : last.token?.bind (operatorFrom? p) = none := chain_stops deep
    exact stop

theorem reads_expressionAt {depth p : Nat} (bounded : p ≤ negationPrecedence) :
    (expressionAt p).Reads depth (stopRank p) (Expression (maxNesting - depth) p) :=
  reads_recursive ((reads_within (maxNesting - depth) depth).reads p bounded)

end StreamQuery.Parser
