import StreamQuery.Proofs.Grammar

/-!
# What parsers read

A parser reads a derivation if it succeeds exactly on the tokens that the derivation relates to
its result. It stops where the next token cannot go on with what was read. Each token has a rank
for that: behind an expression stand the operators first, then what ends a projected item or a
sort key, then the comma, and then the clauses of a select in their order. A parser that needs a
rank of `k` behind it stops before every token of the rank `k` or above.
-/

namespace StreamQuery

open Grammar

/-- How far out the construct is that a token goes on with, behind an expression. The tokens of
    the highest rank go on with none. -/
def Token.rank : Token → Nat
  | .openParen => 0
  | .asterisk => 1
  | .slash => 1
  | .plus => 2
  | .minus => 2
  | .equal => 3
  | .notEqual => 3
  | .lessThan => 3
  | .lessOrEqual => 3
  | .greaterThan => 3
  | .greaterOrEqual => 3
  | .keyword .WHEN => 5
  | .keyword .ELSE => 6
  | .keyword .AS => 5
  | .keyword .ASC => 5
  | .keyword .ASCENDING => 5
  | .keyword .DESC => 5
  | .keyword .DESCENDING => 5
  | .comma => 6
  | .keyword .FROM => 7
  | .keyword .WHERE => 8
  | .keyword .GROUP => 9
  | .keyword .ORDER => 10
  | .keyword .UNION => 11
  | _ => 12

namespace Input

def token? (i : Input) : Option Token := i.lexemes.head?.map Lexeme.token

/-- The rank of the next token; the end of the input ends everything. -/
def rank (i : Input) : Nat := (i.token?.map Token.rank).getD 12

/-- An input begins with some tokens, and another is what is left behind them. -/
def Begins (i : Input) : List Token → Input → Prop
  | [], rest => rest = i
  | t :: ts, rest => i.token? = some t ∧ i.tail.Begins ts rest

theorem begins_append {ts us : List Token} {i rest : Input} :
    i.Begins (ts ++ us) rest ↔ ∃ middle, i.Begins ts middle ∧ middle.Begins us rest := by
  induction ts generalizing i with
  | nil => simp [Begins]
  | cons t ts ih =>
    rw [List.cons_append, Begins, ih]
    constructor
    · rintro ⟨next, middle, first, second⟩
      exact ⟨middle, ⟨next, first⟩, second⟩
    · rintro ⟨middle, ⟨next, first⟩, second⟩
      exact ⟨next, middle, first, second⟩

theorem begins_depth {ts : List Token} {i rest : Input} (begins : i.Begins ts rest) :
    rest.depth = i.depth := by
  induction ts generalizing i with
  | nil => rw [show rest = i from begins]
  | cons t ts ih =>
    have rest_depth : rest.depth = i.tail.depth := ih begins.2
    exact rest_depth

theorem rank_of_token {i : Input} {t : Token} (next : i.token? = some t) : i.rank = t.rank := by
  rw [rank, next]
  rfl

/-- A token of another rank than is needed is not the next. -/
theorem token_ne {i : Input} {t : Token} {k : Nat} (less : t.rank < k) (enough : k ≤ i.rank) :
    i.token? ≠ some t := by
  intro next
  rw [rank_of_token next] at enough
  omega

end Input

namespace Parser

variable {α β : Type}

/-- A parser reads a derivation at a depth: it succeeds on the tokens that the derivation relates
    to the result, and no others, if a token of the rank `k` or the end comes next. -/
structure Reads (depth k : Nat) (p : Parser α) (derivation : Derivation α) : Prop where
  sound : ∀ {i rest : Input} {a : α}, i.depth = depth → p.run i = .ok a rest →
    ∃ ts, derivation ts a ∧ i.Begins ts rest
  complete : ∀ {i rest : Input} {ts : List Token} {a : α}, i.depth = depth → derivation ts a →
    i.Begins ts rest → k ≤ rest.rank → p.run i = .ok a rest

/-- Behind the tokens of a repetition comes what is behind it, or its leading token. -/
theorem rank_of_repeated {t : Token} {lead ts : List Token} {part : Derivation α} {as : List α} {k : Nat}
    {i rest : Input} (derived : Repeated (t :: lead) part ts as) (begins : i.Begins ts rest)
    (less : k ≤ t.rank) (enough : k ≤ rest.rank) : k ≤ i.rank := by
  cases derived with
  | nil =>
    rw [← show rest = i from begins]
    exact enough
  | cons head tail =>
    rw [Input.rank_of_token begins.1]
    exact less

/-! ## Steps -/

theorem run_bind_ok {p : Parser α} {f : α → Parser β} {i rest : Input} {b : β} :
    (p >>= f).run i = .ok b rest ↔ ∃ a middle, p.run i = .ok a middle ∧ (f a).run middle = .ok b rest := by
  show (andThen p f).run i = .ok b rest ↔ _
  cases first : p.run i with
  | ok a middle =>
    simp only [andThen, first]
    constructor
    · exact fun second => ⟨a, middle, rfl, second⟩
    · rintro ⟨_, _, same, second⟩
      cases same
      exact second
  | error e middle => simp [andThen, first]

theorem run_pure_ok {a b : α} {i rest : Input} :
    (pure a : Parser α).run i = .ok b rest ↔ a = b ∧ i = rest := by
  show Outcome.ok a i = .ok b rest ↔ _
  simp

theorem run_map_ok {f : α → β} {p : Parser α} {i rest : Input} {b : β} :
    (f <$> p).run i = .ok b rest ↔ ∃ a, p.run i = .ok a rest ∧ f a = b := by
  show (p >>= fun a => pure (f a)).run i = .ok b rest ↔ _
  rw [run_bind_ok]
  constructor
  · rintro ⟨a, middle, first, last⟩
    obtain ⟨same, rfl⟩ := run_pure_ok.mp last
    exact ⟨a, first, same⟩
  · rintro ⟨a, first, same⟩
    exact ⟨a, rest, first, run_pure_ok.mpr ⟨same, rfl⟩⟩

/-! ## Single tokens -/

theorem run_accept? (f : Token → Option α) (i : Input) :
    (accept? f).run i = match i.token?.bind f with
      | some a => .ok (some a) i.tail
      | none => .ok none i := by
  obtain ⟨lexemes, ending, depth⟩ := i
  cases lexemes with
  | nil => rfl
  | cons l ls =>
    cases value : f l.token with
    | none => simp [accept?, Input.token?, value]
    | some a => simp [accept?, Input.token?, value]

theorem run_accept?_ok {f : Token → Option α} {i rest : Input} {found : Option α} :
    (accept? f).run i = .ok found rest ↔
      (∃ t a, f t = some a ∧ found = some a ∧ i.Begins [t] rest) ∨
        found = none ∧ i.token?.bind f = none ∧ rest = i := by
  rw [run_accept?]
  constructor
  · intro read
    cases given : i.token?.bind f with
    | none =>
      rw [given] at read
      cases read
      exact .inr ⟨rfl, rfl, rfl⟩
    | some a =>
      rw [given] at read
      cases read
      obtain ⟨t, next, value⟩ := Option.bind_eq_some_iff.mp given
      exact .inl ⟨t, a, value, rfl, next, rfl⟩
  · rintro (⟨t, a, value, rfl, next, rfl⟩ | ⟨rfl, given, rfl⟩)
    · rw [next, Option.bind_some, value]
    · rw [given]

theorem exactly_eq_some {t u : Token} {x : Unit} : exactly t u = some x ↔ u = t := by
  unfold exactly
  split <;> simp [*]

theorem exactly_bind {t : Token} {next : Option Token} : next.bind (exactly t) = none ↔ next ≠ some t := by
  cases next with
  | none => simp
  | some u => simp [exactly]

theorem run_accept {t : Token} {i rest : Input} {found : Bool} :
    (accept t).run i = .ok found rest ↔
      found = true ∧ i.Begins [t] rest ∨ found = false ∧ i.token? ≠ some t ∧ rest = i := by
  unfold accept
  rw [run_map_ok]
  constructor
  · rintro ⟨value, read, rfl⟩
    rcases run_accept?_ok.mp read with ⟨u, x, same, rfl, begins⟩ | ⟨rfl, other, rfl⟩
    · rw [exactly_eq_some.mp same] at begins
      exact .inl ⟨rfl, begins⟩
    · exact .inr ⟨rfl, exactly_bind.mp other, rfl⟩
  · rintro (⟨rfl, begins⟩ | ⟨rfl, other, rfl⟩)
    · exact ⟨some (), run_accept?_ok.mpr (.inl ⟨t, (), exactly_eq_some.mpr rfl, rfl, begins⟩), rfl⟩
    · exact ⟨none, run_accept?_ok.mpr (.inr ⟨rfl, exactly_bind.mpr other, rfl⟩), rfl⟩

theorem run_next {expected : Expectation} {i rest : Input} {l : Lexeme} :
    (next expected).run i = .ok l rest ↔ i.lexemes.head? = some l ∧ rest = i.tail := by
  obtain ⟨lexemes, ending, depth⟩ := i
  cases lexemes with
  | nil =>
    cases ending with
    | finished position => simp [next]
    | failed e after => simp [next]
  | cons l ls => simp [next, eq_comm]

theorem run_require {expected : Expectation} {f : Token → Option α} {i rest : Input} {a : α} :
    (require expected f).run i = .ok a rest ↔ ∃ t, f t = some a ∧ i.Begins [t] rest := by
  unfold require
  rw [run_bind_ok]
  constructor
  · rintro ⟨found, middle, read, last⟩
    rcases run_accept?_ok.mp read with ⟨t, b, value, rfl, begins⟩ | ⟨rfl, _, _⟩
    · obtain ⟨rfl, rfl⟩ := run_pure_ok.mp last
      exact ⟨t, value, begins⟩
    · cases last
  · rintro ⟨t, value, begins⟩
    exact ⟨some a, rest, run_accept?_ok.mpr (.inl ⟨t, a, value, rfl, begins⟩), run_pure_ok.mpr ⟨rfl, rfl⟩⟩

theorem run_expect {t : Token} {i rest : Input} {u : Unit} :
    (expect t).run i = .ok u rest ↔ i.Begins [t] rest := by
  unfold expect
  rw [run_require]
  constructor
  · rintro ⟨_, same, begins⟩
    rw [exactly_eq_some.mp same] at begins
    exact begins
  · exact fun begins => ⟨t, exactly_eq_some.mpr rfl, begins⟩

theorem run_identifier {i rest : Input} {name : String} :
    identifier.run i = .ok name rest ↔ i.Begins [.ident name] rest := by
  unfold identifier
  rw [run_require]
  constructor
  · rintro ⟨t, same, begins⟩
    cases t with
    | ident word =>
      cases same
      exact begins
    | _ => cases same
  · exact fun begins => ⟨_, rfl, begins⟩

theorem run_peek {i rest : Input} {next : Option Token} :
    peek.run i = .ok next rest ↔
      rest = i ∧ next = i.token? ∧ (i.lexemes = [] → ∃ position, i.ending = .finished position) := by
  obtain ⟨lexemes, ending, depth⟩ := i
  cases lexemes with
  | nil =>
    cases ending with
    | finished position => simp [peek, Input.token?, eq_comm, and_comm]
    | failed e after => simp [peek]
  | cons l ls => simp [peek, Input.token?, eq_comm, and_comm]

theorem run_peek_some {i : Input} {t : Token} (next : i.token? = some t) : peek.run i = .ok (some t) i := by
  refine run_peek.mpr ⟨rfl, next.symm, fun none => ?_⟩
  rw [Input.token?, none] at next
  cases next

/-! ## Repetitions and clauses -/

/-- A repetition reads nothing where the next token does not lead a part. -/
theorem runMany_none {lead : Token → Option α} {p : α → Parser β} {i : Input}
    (stop : i.token?.bind lead = none) : runMany lead p i = .ok [] i := by
  rw [runMany]
  split
  · rfl
  · rename_i l next
    have other : lead l.token = none := by simpa [Input.token?, next] using stop
    split
    · rfl
    · rename_i a value
      rw [other] at value
      cases value

/-- Where the next token leads a part, a repetition reads that part and goes on behind it. -/
theorem runMany_some {lead : Token → Option α} {p : α → Parser β} {i : Input} {a : α}
    (go : i.token?.bind lead = some a) :
    runMany lead p i = ((p a).andThen fun b => (many lead p).andThen fun bs => succeed (b :: bs)).run i.tail := by
  rw [runMany]
  split
  · rename_i next
    simp [Input.token?, next] at go
  · rename_i l next
    have same : lead l.token = some a := by simpa [Input.token?, next] using go
    split
    · rename_i value
      rw [same] at value
      cases value
    · rename_i b value
      obtain rfl := Option.some.inj (value.symm.trans same)
      simp only [andThen, many, succeed]
      split
      · rename_i e rest read
        rw [read]
      · rename_i b middle read
        rw [read]
        cases rest : runMany lead p middle with
        | ok bs after => simp only [rest]
        | error e after => simp only [rest]

theorem run_many {lead : Token → Option α} {p : α → Parser β} {i rest : Input} {bs : List β} :
    (many lead p).run i = .ok bs rest ↔
      bs = [] ∧ rest = i ∧ i.token?.bind lead = none ∨
        ∃ t a b others middle, lead t = some a ∧ i.token? = some t ∧ (p a).run i.tail = .ok b middle ∧
          (many lead p).run middle = .ok others rest ∧ bs = b :: others := by
  show runMany lead p i = .ok bs rest ↔ _
  cases given : i.token?.bind lead with
  | none =>
    rw [runMany_none given]
    constructor
    · intro read
      cases read
      exact .inl ⟨rfl, rfl, rfl⟩
    · rintro (⟨rfl, rfl, _⟩ | ⟨t, a, _, _, _, value, next, _⟩)
      · rfl
      · rw [next, Option.bind_some, value] at given
        cases given
  | some a =>
    obtain ⟨t, next, value⟩ := Option.bind_eq_some_iff.mp given
    rw [runMany_some given]
    constructor
    · intro read
      obtain ⟨b, middle, first, read⟩ := run_bind_ok.mp read
      obtain ⟨others, last, later, read⟩ := run_bind_ok.mp read
      obtain ⟨rfl, rfl⟩ := run_pure_ok.mp read
      exact .inr ⟨t, a, b, others, middle, value, next, first, later, rfl⟩
    · rintro (⟨_, _, absurd⟩ | ⟨u, c, b, others, middle, value', next', first, later, rfl⟩)
      · cases absurd
      · obtain rfl := Option.some.inj (next.symm.trans next')
        obtain rfl := Option.some.inj (value.symm.trans value')
        exact run_bind_ok.mpr ⟨b, middle, first, run_bind_ok.mpr ⟨others, rest, later,
          run_pure_ok.mpr ⟨rfl, rfl⟩⟩⟩

/-- Tokens of a derivation behind others. -/
def Behind (lead : List Token) (part : Derivation α) : Derivation α :=
  fun ts a => ∃ us, ts = lead ++ us ∧ part us a

theorem behind_nil (part : Derivation α) : Behind [] part = part := by
  funext ts a
  refine propext ⟨?_, fun derived => ⟨ts, rfl, derived⟩⟩
  rintro ⟨_, rfl, derived⟩
  exact derived

theorem Reads.mono {depth k l : Nat} {p : Parser α} {derivation : Derivation α}
    (reads : p.Reads depth k derivation) (less : k ≤ l) : p.Reads depth l derivation where
  sound := reads.sound
  complete at_ derived begins enough := reads.complete at_ derived begins (Nat.le_trans less enough)

theorem reads_expect {depth k : Nat} {t : Token} {p : Parser α} {derivation : Derivation α}
    (reads : p.Reads depth k derivation) :
    (do expect t; p).Reads depth k (Behind [t] derivation) where
  sound at_ read := by
    obtain ⟨_, middle, first, second⟩ := run_bind_ok.mp read
    have begins := run_expect.mp first
    obtain ⟨us, derived, others⟩ := reads.sound ((Input.begins_depth begins).trans at_) second
    exact ⟨t :: us, ⟨us, rfl, derived⟩, Input.begins_append.mpr ⟨middle, begins, others⟩⟩
  complete at_ derived begins enough := by
    obtain ⟨us, rfl, derived⟩ := derived
    obtain ⟨middle, first, others⟩ := Input.begins_append.mp begins
    exact run_bind_ok.mpr ⟨(), middle, run_expect.mpr first,
      reads.complete ((Input.begins_depth first).trans at_) derived others enough⟩

theorem reads_many {depth k : Nat} {t : Token} {lead : List Token} {p : Parser α} {part : Derivation α}
    (reads : p.Reads depth k (Behind lead part)) (less : k ≤ t.rank) :
    (many (exactly t) fun _ => p).Reads depth (t.rank + 1) (Repeated (t :: lead) part) where
  sound {i rest as} at_ read := by
    induction as generalizing i with
    | nil =>
      rcases run_many.mp read with ⟨_, same, _⟩ | ⟨_, _, _, _, _, _, _, _, _, absurd⟩
      · exact ⟨[], .nil, same⟩
      · cases absurd
    | cons a others ih =>
      rcases run_many.mp read with ⟨absurd, _⟩ | ⟨u, _, b, bs, middle, same, next, first, later, split⟩
      · cases absurd
      · cases split
        obtain ⟨_, ⟨us, rfl, derived⟩, begins⟩ := reads.sound (i := i.tail) at_ first
        obtain ⟨ts, rest_derived, others⟩ := ih ((Input.begins_depth begins).trans at_) later
        have here : i.Begins (t :: lead ++ us) middle := ⟨by rw [next, exactly_eq_some.mp same], begins⟩
        exact ⟨_, .cons derived rest_derived, Input.begins_append.mpr ⟨middle, here, others⟩⟩
  complete {i rest ts as} at_ derived begins enough := by
    induction derived generalizing i with
    | nil =>
      rw [show rest = i from begins] at enough ⊢
      exact run_many.mpr (.inl ⟨rfl, rfl, exactly_bind.mpr (Input.token_ne (Nat.lt_succ_self _) enough)⟩)
    | @cons first after a others head tail ih =>
      obtain ⟨middle, ⟨next, here⟩, later⟩ := Input.begins_append.mp begins
      have depth_middle : middle.depth = depth := (Input.begins_depth here).trans at_
      have enough_middle : k ≤ middle.rank :=
        rank_of_repeated tail later less (Nat.le_trans less (Nat.le_of_succ_le enough))
      exact run_many.mpr (.inr ⟨t, (), a, others, middle, exactly_eq_some.mpr rfl, next,
        reads.complete at_ ⟨first, rfl, head⟩ here enough_middle, ih depth_middle later, rfl⟩)

theorem reads_commaSeparated {depth k : Nat} {p : Parser α} {part : Derivation α}
    (reads : p.Reads depth k part) (less : k ≤ Token.comma.rank) :
    (commaSeparated p).Reads depth (Token.comma.rank + 1) (Separated [.comma] part) := by
  have behind : p.Reads depth k (Behind [] part) := by
    rw [behind_nil]
    exact reads
  have others := reads_many (t := .comma) behind less
  refine ⟨fun {i rest as} at_ read => ?_, fun {i rest ts as} at_ derived begins enough => ?_⟩
  · obtain ⟨a, middle, first, read⟩ := run_bind_ok.mp read
    obtain ⟨bs, last, later, read⟩ := run_bind_ok.mp read
    obtain ⟨rfl, rfl⟩ := run_pure_ok.mp read
    obtain ⟨ts, head, begins⟩ := reads.sound at_ first
    obtain ⟨us, tail, ends⟩ := others.sound ((Input.begins_depth begins).trans at_) later
    exact ⟨ts ++ us, .intro head tail, Input.begins_append.mpr ⟨middle, begins, ends⟩⟩
  · cases derived with
    | @intro ts us a bs head tail =>
      obtain ⟨middle, here, later⟩ := Input.begins_append.mp begins
      have stop : k ≤ middle.rank :=
        rank_of_repeated tail later less (Nat.le_trans less (Nat.le_of_succ_le enough))
      refine run_bind_ok.mpr ⟨a, middle, reads.complete at_ head here stop, ?_⟩
      exact run_bind_ok.mpr ⟨bs, rest, others.complete ((Input.begins_depth here).trans at_) tail later enough,
        run_pure_ok.mpr ⟨rfl, rfl⟩⟩

/-- Behind the tokens of a clause comes what is behind it, or its keyword. -/
theorem rank_of_clause {t : Token} {lead ts : List Token} {part : Derivation α} {a : Option α} {k : Nat}
    {i rest : Input} (derived : Clause (t :: lead) part ts a) (begins : i.Begins ts rest)
    (less : k ≤ t.rank) (enough : k ≤ rest.rank) : k ≤ i.rank := by
  cases derived with
  | absent =>
    rw [← show rest = i from begins]
    exact enough
  | present body =>
    rw [Input.rank_of_token begins.1]
    exact less

theorem reads_clause {depth k : Nat} {keyword : Keyword} {lead : List Token} {p : Parser α}
    {part : Derivation α} (reads : p.Reads depth k (Behind lead part))
    (less : (Token.keyword keyword).rank < k) :
    (clause keyword p).Reads depth k (Clause (.keyword keyword :: lead) part) := by
  refine ⟨fun {i rest found} at_ read => ?_, fun {i rest ts found} at_ derived begins enough => ?_⟩
  · obtain ⟨present, middle, first, second⟩ := run_bind_ok.mp read
    rcases run_accept.mp first with ⟨rfl, next, rfl⟩ | ⟨rfl, _, rfl⟩
    · obtain ⟨a, last, rfl⟩ := run_map_ok.mp second
      obtain ⟨_, ⟨us, rfl, derived⟩, begins⟩ := reads.sound (i := i.tail) at_ last
      exact ⟨_, .present derived, next, begins⟩
    · obtain ⟨rfl, rfl⟩ := run_pure_ok.mp second
      exact ⟨[], .absent, rfl⟩
  · cases derived with
    | absent =>
      rw [show rest = i from begins] at enough ⊢
      exact run_bind_ok.mpr ⟨false, i, run_accept.mpr (.inr ⟨rfl, Input.token_ne less enough, rfl⟩),
        run_pure_ok.mpr ⟨rfl, rfl⟩⟩
    | present body =>
      refine run_bind_ok.mpr ⟨true, i.tail, run_accept.mpr (.inl ⟨rfl, begins.1, rfl⟩), ?_⟩
      exact run_map_ok.mpr ⟨_, reads.complete (i := i.tail) at_ ⟨_, rfl, body⟩ begins.2 enough, rfl⟩

theorem reads_optional {depth k : Nat} {keyword : Keyword} {p : Parser α} {part : Derivation α}
    (reads : p.Reads depth k part) (less : (Token.keyword keyword).rank < k) :
    (clause keyword p).Reads depth k (Clause [.keyword keyword] part) := by
  refine reads_clause ?_ less
  rw [behind_nil]
  exact reads

theorem many_stops {lead : Token → Option α} {p : α → Parser β} {i rest : Input} {bs : List β}
    (read : (many lead p).run i = .ok bs rest) : rest.token?.bind lead = none := by
  induction bs generalizing i with
  | nil =>
    rcases run_many.mp read with ⟨_, rfl, stop⟩ | ⟨_, _, _, _, _, _, _, _, _, absurd⟩
    · exact stop
    · cases absurd
  | cons b others ih =>
    rcases run_many.mp read with ⟨absurd, _⟩ | ⟨_, _, _, _, _, _, _, _, later, split⟩
    · cases absurd
    · cases split
      exact ih later

/-- Tokens of a derivation and the parenthesis that closes it. -/
theorem reads_closed {depth k : Nat} {p : Parser α} {derivation : Derivation α} (f : α → β)
    (reads : p.Reads depth k derivation) (less : k ≤ 12) :
    (do
      let a ← p
      expect .closeParen
      return f a).Reads depth 0 fun ts b => ∃ us a, ts = us ++ [Token.closeParen] ∧ derivation us a ∧ b = f a := by
  refine ⟨fun {i rest b} at_ read => ?_, fun {i rest ts b} at_ derived begins enough => ?_⟩
  · obtain ⟨a, middle, first, read⟩ := run_bind_ok.mp read
    obtain ⟨_, last, close, read⟩ := run_bind_ok.mp read
    obtain ⟨rfl, rfl⟩ := run_pure_ok.mp read
    obtain ⟨us, derived, begins⟩ := reads.sound at_ first
    exact ⟨_, ⟨us, a, rfl, derived, rfl⟩, Input.begins_append.mpr ⟨middle, begins, run_expect.mp close⟩⟩
  · obtain ⟨us, a, rfl, derived, rfl⟩ := derived
    obtain ⟨middle, begins, close⟩ := Input.begins_append.mp begins
    have stop : k ≤ middle.rank := by
      rw [Input.rank_of_token close.1]
      exact less
    exact run_bind_ok.mpr ⟨a, middle, reads.complete at_ derived begins stop,
      run_bind_ok.mpr ⟨(), rest, run_expect.mpr close, run_pure_ok.mpr ⟨rfl, rfl⟩⟩⟩

/-! ## Levels -/

theorem begins_enter {ts : List Token} {i rest : Input} :
    i.enter.Begins ts rest.enter ↔ i.Begins ts rest := by
  induction ts generalizing i with
  | nil =>
    obtain ⟨ls, e, d⟩ := i
    obtain ⟨ls', e', d'⟩ := rest
    simp [Input.Begins, Input.enter]
  | cons t ts ih =>
    have inner : i.tail.enter.Begins ts rest.enter ↔ i.tail.Begins ts rest := ih
    exact and_congr Iff.rfl inner

theorem run_deeper {p : Parser α} {i rest : Input} {a : α} :
    (deeper p).run i = .ok a rest ↔ ∃ inner, p.run i.enter = .ok a inner ∧ inner.leave = rest := by
  show (p.run i.enter).mapRest Input.leave = .ok a rest ↔ _
  cases p.run i.enter with
  | ok b inner => simp [Outcome.mapRest, and_assoc]
  | error e inner => simp [Outcome.mapRest]

theorem reads_deeper {depth k : Nat} {p : Parser α} {derivation : Derivation α}
    (reads : p.Reads (depth + 1) k derivation) : (deeper p).Reads depth k derivation := by
  refine ⟨fun {i rest a} at_ read => ?_, fun {i rest ts a} at_ derived begins enough => ?_⟩
  · obtain ⟨⟨lexemes, ending, finish, inner_depth⟩, inside, rfl⟩ := run_deeper.mp read
    have at_inner : i.enter.depth = depth + 1 := congrArg (· + 1) at_
    obtain ⟨ts, derived, begins⟩ := reads.sound at_inner inside
    obtain rfl : inner_depth = depth + 1 := (Input.begins_depth begins).trans at_inner
    exact ⟨ts, derived, begins_enter.mp begins⟩
  · have at_inner : i.enter.depth = depth + 1 := congrArg (· + 1) at_
    refine run_deeper.mpr ⟨rest.enter, ?_, rfl⟩
    exact reads.complete at_inner derived (begins_enter.mpr begins) enough

/-- A recursive parser reads what it reads with the levels that are left at its depth. -/
theorem reads_recursive {ι : Type} {body : (ι → Parser α) → ι → Parser α} {x : ι} {depth k : Nat}
    {derivation : Derivation α} (reads : (within body (maxNesting - depth) x).Reads depth k derivation) :
    (recursive body x).Reads depth k derivation where
  sound {i rest a} at_ read := by
    subst at_
    exact reads.sound rfl read
  complete {i rest ts a} at_ derived begins enough := by
    subst at_
    exact reads.complete rfl derived begins enough

end Parser

end StreamQuery
