import StreamQuery.Proofs.ParserInvariants
import StreamQuery.Proofs.RoundTrip

/-!
# Balance of the nesting depth

The depth of an input is changed where a parser reads one level deeper and where it comes back, and
between the two lie parsers that end early with an error. Still every run of every part of a parser
comes back to the depth that it was given, and none is given a depth beyond the limit. The limit of
the depth is one of the statements: what a statement needs in nesting never exceeds it, since it
needs no more than its rendering.
-/

namespace StreamQuery

open StreamQuery.Parser

/-! ## Runs -/

/-- A run that begins within the limit and comes back to its own depth. -/
def Level (run : Input × Input) : Prop := run.1.depth ≤ maxNesting ∧ run.2.depth = run.1.depth

/-- On this input every run of the parser and its parts is level. -/
def LevelOn {α : Type} (p : Parser α) (i : Input) : Prop := ∀ run ∈ p.runs i, Level run

/-- On every input at this depth, if it is within the limit, every run of the parser and its parts
    is level. -/
def Balanced (depth : Nat) (α : Type) (p : Parser α) : Prop :=
  depth ≤ maxNesting → ∀ i, i.depth = depth → LevelOn p i

section Combinators

variable {α β : Type} {d : Nat} {i : Input}

theorem levelOn_iff {p : Parser α} : LevelOn p i ↔ Level (i, (p.run i).rest) ∧ ∀ run ∈ p.parts i, Level run :=
  List.forall_mem_cons

theorem LevelOn.back {p : Parser α} (level : LevelOn p i) : (p.run i).rest.depth = i.depth :=
  (levelOn_iff.mp level).1.2

theorem LevelOn.within {p : Parser α} (level : LevelOn p i) : i.depth ≤ maxNesting :=
  (levelOn_iff.mp level).1.1

theorem levelOn_single {p : Parser α} (alone : p.parts i = []) (within : i.depth ≤ maxNesting)
    (back : (p.run i).rest.depth = i.depth) : LevelOn p i := by
  refine levelOn_iff.mpr ⟨⟨within, back⟩, ?_⟩
  rw [alone]
  simp

theorem levelOn_andThen {p : Parser α} {f : α → Parser β} (first : LevelOn p i)
    (rest : ∀ a middle, p.run i = .ok a middle → LevelOn (f a) middle) : LevelOn (andThen p f) i := by
  have here := first.back
  refine levelOn_iff.mpr ⟨⟨first.within, ?_⟩, ?_⟩
  · simp only [andThen]
    cases read : p.run i with
    | ok a middle =>
      rw [read] at here
      exact (rest a middle read).back.trans here
    | error e middle =>
      rw [read] at here
      exact here
  · simp only [andThen]
    rw [List.forall_mem_append]
    refine ⟨first, ?_⟩
    cases read : p.run i with
    | ok a middle => exact rest a middle read
    | error e middle => simp

theorem balanced_andThen {p : Parser α} {f : α → Parser β} (first : Balanced d α p) (rest : ∀ a, Balanced d β (f a)) :
    Balanced d β (andThen p f) := by
  intro within i at_
  have here := first within i at_
  refine levelOn_andThen here fun a middle read => rest a within middle ?_
  have back := here.back
  rw [read] at back
  exact back.trans at_

theorem balanced_peek : Balanced d (Option Token) peek := by
  rintro within i rfl
  refine levelOn_single rfl within ?_
  obtain ⟨lexemes, ending, depth⟩ := i
  cases lexemes with
  | cons l ls => rfl
  | nil => cases ending <;> rfl

theorem balanced_next {expected : Expectation} : Balanced d Lexeme (next expected) := by
  rintro within i rfl
  refine levelOn_single rfl within ?_
  obtain ⟨lexemes, ending, depth⟩ := i
  cases lexemes with
  | cons l ls => rfl
  | nil => cases ending <;> rfl

theorem balanced_accept? (f : Token → Option α) : Balanced d (Option α) (accept? f) := by
  rintro within i rfl
  refine levelOn_single rfl within ?_
  rw [run_accept?]
  cases i.token?.bind f <;> rfl

theorem partsOfMany_none {lead : Token → Option α} {p : α → Parser β} (stop : i.token?.bind lead = none) :
    partsOfMany lead p i = [] := by
  rw [partsOfMany]
  split
  · rfl
  · rename_i l next
    have other : lead l.token = none := by simpa [Input.token?, next] using stop
    split
    · rfl
    · rename_i a value
      rw [other] at value
      cases value

/-- Where the next token leads a part, a repetition runs that part and then itself behind it. -/
theorem partsOfMany_some {lead : Token → Option α} {p : α → Parser β} {a : α} (go : i.token?.bind lead = some a) :
    partsOfMany lead p i = (p a).runs i.tail ++ match (p a).run i.tail with
      | .ok _ rest => (many lead p).runs rest
      | .error _ _ => [] := by
  rw [partsOfMany]
  split
  · rename_i next
    simp [Input.token?, next] at go
  · rename_i l next
    have same : lead l.token = some a := by simpa [Input.token?, next] using go
    split
    · rename_i value
      rw [same] at value
      cases value
    · rename_i b value
      obtain rfl := Option.some.inj (value.symm.trans same)
      congr 1
      split
      · rename_i e rest read
        rw [read]
      · rename_i b middle read
        rw [read]
        rfl

/-- By induction on the lexemes that are left, since every round reads one. -/
theorem levelOn_many {lead : Token → Option α} {p : α → Parser β} (part : ∀ a, Balanced d β (p a))
    (within : d ≤ maxNesting) (i : Input) (at_ : i.depth = d) : LevelOn (many lead p) i := by
  cases given : i.token?.bind lead with
  | none =>
    have outcome : (many lead p).run i = .ok [] i := runMany_none given
    exact levelOn_single (partsOfMany_none given) (at_ ▸ within) (by rw [outcome]; rfl)
  | some a =>
    have first : LevelOn (p a) i.tail := part a within i.tail at_
    have later : ∀ b rest, (p a).run i.tail = .ok b rest → LevelOn (many lead p) rest := by
      intro b rest read
      obtain ⟨l, next, _⟩ := Option.map_eq_some_iff.mp (Option.bind_eq_some_iff.mp given).choose_spec.1
      have shorter := length_rest_lt next read
      have here := first.back
      rw [read] at here
      exact levelOn_many part within rest (here.trans at_)
    have round : LevelOn ((p a).andThen fun b => (many lead p).andThen fun bs => succeed (b :: bs)) i.tail := by
      refine levelOn_andThen first fun b rest read => levelOn_andThen (later b rest read) fun bs after others => ?_
      have back := (later b rest read).back
      rw [others] at back
      have same : after.depth = rest.depth := back
      exact levelOn_single rfl (same ▸ (later b rest read).within) rfl
    refine levelOn_iff.mpr ⟨⟨at_ ▸ within, ?_⟩, ?_⟩
    · show (runMany lead p i).rest.depth = i.depth
      rw [runMany_some given]
      exact round.back
    · show ∀ run ∈ partsOfMany lead p i, Level run
      rw [partsOfMany_some given, List.forall_mem_append]
      refine ⟨first, ?_⟩
      cases read : (p a).run i.tail with
      | ok b rest => exact later b rest read
      | error e rest => simp
termination_by i.lexemes.length

theorem balanced_deeper {p : Parser α} (room : d < maxNesting) (h : Balanced (d + 1) α p) : Balanced d α (deeper p) := by
  rintro within i rfl
  have inner := h room i.enter rfl
  refine levelOn_iff.mpr ⟨⟨within, ?_⟩, inner⟩
  have back : (p.run i.enter).rest.depth = i.depth + 1 := inner.back
  simp only [deeper]
  cases read : p.run i.enter with
  | ok a rest =>
    rw [read] at back
    exact congrArg (· - 1) back
  | error e rest =>
    rw [read] at back
    exact congrArg (· - 1) back

theorem balanced_recursive {ι : Type} {body : (ι → Parser α) → ι → Parser α} {x : ι}
    (h : Balanced d α (within body (maxNesting - d) x)) : Balanced d α (recursive body x) := by
  rintro within i rfl
  have inner := h within i rfl
  exact levelOn_iff.mpr ⟨⟨within, inner.back⟩, inner⟩

end Combinators

theorem balanced_invariant : Invariant (fun _ => True) Balanced where
  succeed _ within _ at_ := levelOn_single rfl (at_ ▸ within) rfl
  andThen := balanced_andThen
  unexpected _ within _ at_ := levelOn_single rfl (at_ ▸ within) rfl
  failAt _ _ within _ at_ := levelOn_single rfl (at_ ▸ within) rfl
  failCall _ within _ at_ := levelOn_single rfl (at_ ▸ within) rfl
  peek := balanced_peek
  next rest := balanced_andThen balanced_next fun l => rest l trivial
  accept? := balanced_accept?
  many part within i at_ := levelOn_many part within i at_
  deeper := balanced_deeper
  recursive := balanced_recursive

/-! ## What a statement needs -/

mutual

/-- The levels that an expression needs: one for itself, one more around the right operand of an
    operator, and one more around the operand of NOT, an argument and the parts of a CASE. -/
def Expr.need : Expr → Nat
  | .lit _ => 1
  | .var _ => 1
  | .rename inner _ => inner.need
  | .not operand => 1 + operand.need
  | .binary _ left right => max left.need (1 + right.need)
  | .case arms => 1 + arms.need
  | .call _ argument => 1 + argument.need

def Arms.need : Arms → Nat
  | .done => 0
  | .otherwise result => result.need
  | .when condition result rest => max condition.need (max result.need rest.need)

end

def Clauses.need (c : Clauses) : Nat := (c.expressions.map Expr.need).foldr max 0

/-- The level that a query behind FROM takes: one in parentheses, and none as a table or as all
    that is behind FROM. -/
def Query.level : Query → Nat
  | .table _ | .crossJoin _ => 0
  | .select _ _ | .unionAll _ => 1

mutual

/-- The levels that the expressions of a query and its queries behind FROM need. -/
def Query.inside : Query → Nat
  | .table _ => 0
  | .select clauses source => max clauses.need (Query.sourceNeed source)
  | .unionAll queries => Query.largestInside queries
  | .crossJoin queries => Query.largestNeed queries

def Query.largestInside : List Query → Nat
  | [] => 0
  | q :: rest => max q.inside (Query.largestInside rest)

def Query.largestNeed : List Query → Nat
  | [] => 0
  | q :: rest => max (q.level + q.inside) (Query.largestNeed rest)

def Query.sourceNeed : Option Query → Nat
  | none => 0
  | some q => q.level + q.inside

end

def Statement.need : Statement → Nat
  | query q => q.inside
  | createTable _ _ => 0

theorem le_levelsIn (needed : Bool) (levels : Nat) : levels ≤ levelsIn needed levels := by
  cases needed <;> simp [levelsIn]

mutual

theorem need_le_levels : ∀ e : Expr, e.need ≤ e.levels + 1
  | .lit _ => Nat.le_refl _
  | .var _ => Nat.le_refl _
  | .rename inner _ => need_le_levels inner
  | .not operand => by
    have inner := need_le_levels operand
    have parens := le_levelsIn (operand.precedence < negationPrecedence) operand.levels
    simp only [Expr.need, Expr.levels]
    omega
  | .binary op left right => by
    have first := need_le_levels left
    have second := need_le_levels right
    have parens₁ := le_levelsIn (left.precedence < op.precedence) left.levels
    have parens₂ := le_levelsIn (right.precedence < op.precedence + 1) right.levels
    simp only [Expr.need, Expr.levels]
    omega
  | .case arms => by
    have inner := armsNeed_le_levels arms
    simp only [Expr.need, Expr.levels]
    omega
  | .call _ argument => by
    have inner := need_le_levels argument
    simp only [Expr.need, Expr.levels]
    omega

theorem armsNeed_le_levels : ∀ arms : Arms, arms.need ≤ arms.levels
  | .done => Nat.le_refl _
  | .otherwise result => need_le_levels result
  | .when condition result rest => by
    have first := need_le_levels condition
    have second := need_le_levels result
    have others := armsNeed_le_levels rest
    simp only [Arms.need, Arms.levels]
    omega

end

theorem clausesNeed_le_levels (c : Clauses) : c.need ≤ c.levels := by
  unfold Clauses.need Clauses.levels
  induction c.expressions with
  | nil => exact Nat.le_refl _
  | cons e rest ih =>
    have first := need_le_levels e
    simp only [List.map_cons, List.foldr_cons]
    omega

mutual

/-- So does a query at its place: behind FROM a query in parentheses takes one level more. -/
theorem inside_le_levels (place : Place) : ∀ q : Query,
    q.inside ≤ q.levels place ∧ (place.isFrom = true → q.level + q.inside ≤ q.levels place)
  | .table _ => ⟨Nat.zero_le _, fun _ => Nat.zero_le _⟩
  | .select clauses source => by
    have expressions := clausesNeed_le_levels clauses
    have read := sourceNeed_le_levels source
    simp only [Query.inside, Query.level, Query.levels]
    cases place.isFrom <;> simp [levelsIn] <;> omega
  | .unionAll queries => by
    have members := largestInside_le_levels queries
    simp only [Query.inside, Query.level, Query.levels]
    cases place.isFrom <;> simp [levelsIn] <;> omega
  | .crossJoin queries => by
    have items := largestNeed_le_levels queries
    simp only [Query.inside, Query.level, Query.levels]
    exact ⟨items, fun _ => by omega⟩

theorem largestInside_le_levels : ∀ queries : List Query,
    Query.largestInside queries ≤ Query.allLevels .select queries
  | [] => Nat.le_refl _
  | q :: rest => by
    have first := (inside_le_levels .select q).1
    have others := largestInside_le_levels rest
    simp only [Query.largestInside, Query.allLevels]
    omega

theorem largestNeed_le_levels : ∀ queries : List Query, Query.largestNeed queries ≤ Query.allLevels .item queries
  | [] => Nat.le_refl _
  | q :: rest => by
    have first := (inside_le_levels .item q).2 rfl
    have others := largestNeed_le_levels rest
    simp only [Query.largestNeed, Query.allLevels]
    omega

theorem sourceNeed_le_levels : ∀ source : Option Query, Query.sourceNeed source ≤ Query.sourceLevels source
  | none => Nat.le_refl _
  | some q => (inside_le_levels .source q).2 rfl

end

theorem statementNeed_le_levels (s : Statement) : s.need ≤ s.levels := by
  cases s with
  | query q => exact (inside_le_levels .query q).1
  | createTable name columns => exact Nat.le_refl _

/-! ## Texts -/

/-- The nesting depth is balanced and bounded. Every run of a part of the parser, on the way through
    a text, begins within the limit of 128 levels and comes back to its own depth, so that no depth
    is left which was not entered; behind the front of a text and behind the whole of it the depth is
    zero again, with a statement or with an error; and no statement that a text is parsed as needs
    more levels than the limit. -/
theorem nesting_balanced (text : String) :
    (∀ run ∈ wholeStatement.runs (.ofText text), run.1.depth ≤ 128 ∧ run.2.depth = run.1.depth ∧
      ∀ outer : Input, run.1 = outer.enter → 0 < run.2.depth ∧ run.2.leave.depth = outer.depth) ∧
    (Statement.parseFront text).2.depth = 0 ∧ (wholeStatement.run (.ofText text)).rest.depth = 0 ∧
    ∀ s, Statement.parse text = .ok s → s.need ≤ 128 := by
  have whole : LevelOn wholeStatement (.ofText text) := balanced_invariant.wholeStatement (Nat.zero_le _) _ rfl
  have front : LevelOn statement (.ofText text) := balanced_invariant.statement (Nat.zero_le _) _ rfl
  refine ⟨fun run member => ?_, front.back, whole.back, fun s parsed => ?_⟩
  · obtain ⟨within, back⟩ := whole run member
    refine ⟨within, back, fun outer entered => ?_⟩
    have deeper : run.2.depth = outer.depth + 1 := by rw [back, entered]; rfl
    have left : run.2.leave.depth = run.2.depth - 1 := rfl
    omega
  · exact Nat.le_trans (statementNeed_le_levels s) (wellFormed_of_parse parsed).2

end StreamQuery
