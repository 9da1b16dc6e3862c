import StreamQuery.Proofs.LexemePlaces
import StreamQuery.Proofs.ParserInvariants

/-!
# Positions of parse errors

Every error of a parse points at its cause in the text. While the parser is inside the lexemes of
the text, an error of its own concerns a lexeme of the text or the end of the lexemes, and where
those end with an error it is that error that is reported (`Blames`). That is an invariant of the
combinators; where the lexemes lie in the text says the rest.
-/

namespace StreamQuery

open StreamQuery.Parser

/-! ## Causes -/

/-- The causes that an error can have in a text with the given lexemes: a lexeme that was not
    expected, a call of what is no function, the end of the text, or an error of the lexemes. -/
inductive Blames (all : List Lexeme) (ending : Ending) (finish : Position) : Error → Prop where
  | found {l : Lexeme} (member : l ∈ all) (expected : Expectation) :
      Blames all ending finish (.unexpected l.position expected (some l.token))
  | call {p : Position} {name : String} (member : ⟨p, .ident name⟩ ∈ all) :
      Blames all ending finish (.unknownFunction p name)
  | ended {p : Position} (finished : ending = .finished p) (expected : Expectation) :
      Blames all ending finish (.unexpected finish expected none)
  | lexical {e : Error} {after : Cursor} (failed : ending = .failed e after) : Blames all ending finish e

/-- An input at a depth that has read some of the lexemes and no error of theirs. -/
structure Inside (all : List Lexeme) (ending : Ending) (finish : Position) (depth : Nat) (i : Input) : Prop where
  lexemes : i.lexemes <:+ all
  ending : i.ending = ending
  finish : i.finish = finish
  depth : i.depth = depth

/-- An outcome inside the lexemes: either the parser has read on, or its error has a cause in
    them. -/
def Traced (all : List Lexeme) (ending : Ending) (finish : Position) (depth : Nat) {α : Type} : Outcome α → Prop
  | .ok _ rest => Inside all ending finish depth rest
  | .error e _ => Blames all ending finish e

/-- A parser that stays inside the lexemes where it succeeds, and where it fails has an error with
    a cause in them. -/
def Blaming (all : List Lexeme) (ending : Ending) (finish : Position) (depth : Nat) (α : Type) (p : Parser α) : Prop :=
  ∀ i, Inside all ending finish depth i → Traced all ending finish depth (p.run i)

section Combinators

variable {all : List Lexeme} {ending : Ending} {finish : Position} {d : Nat} {i : Input}

theorem Inside.head (inside : Inside all ending finish d i) {l : Lexeme} {ls : List Lexeme}
    (lexemes : i.lexemes = l :: ls) : l ∈ all :=
  inside.lexemes.mem (by rw [lexemes]; exact List.mem_cons_self)

theorem Inside.tail (inside : Inside all ending finish d i) : Inside all ending finish d i.tail :=
  ⟨(List.tail_suffix _).trans inside.lexemes, inside.ending, inside.finish, inside.depth⟩

theorem Inside.enter (inside : Inside all ending finish d i) : Inside all ending finish (d + 1) i.enter :=
  ⟨inside.lexemes, inside.ending, inside.finish, congrArg (· + 1) inside.depth⟩

theorem Inside.leave (inside : Inside all ending finish (d + 1) i) : Inside all ending finish d i.leave :=
  ⟨inside.lexemes, inside.ending, inside.finish, congrArg (· - 1) inside.depth⟩

theorem blames_failure (inside : Inside all ending finish d i) (expected : Expectation) :
    Blames all ending finish (i.failure expected) := by
  obtain ⟨lexemes, ends, last, depth⟩ := i
  obtain rfl : ends = ending := inside.ending
  obtain rfl : last = finish := inside.finish
  cases lexemes with
  | cons l ls => exact .found (inside.head rfl) expected
  | nil =>
    cases ends with
    | finished p => exact .ended rfl expected
    | failed e after => exact .lexical rfl

theorem blaming_peek : Blaming all ending finish d (Option Token) peek := by
  intro i inside
  obtain ⟨lexemes, ends, last, depth⟩ := i
  cases lexemes with
  | cons l ls => exact inside
  | nil =>
    cases ends with
    | finished p => exact inside
    | failed e after => exact .lexical inside.ending.symm

theorem blaming_accept? {α : Type} (f : Token → Option α) : Blaming all ending finish d (Option α) (accept? f) := by
  intro i inside
  obtain ⟨lexemes, ends, last, depth⟩ := i
  cases lexemes with
  | nil => exact inside
  | cons l ls =>
    cases value : f l.token with
    | none => simpa [accept?, value, Traced] using inside
    | some a => simpa [accept?, value, Traced] using inside.tail

theorem blaming_andThen {α β : Type} {p : Parser α} {f : α → Parser β} (first : Blaming all ending finish d α p)
    (rest : ∀ a, Blaming all ending finish d β (f a)) : Blaming all ending finish d β (andThen p f) := by
  intro i inside
  have here := first i inside
  simp only [andThen]
  cases read : p.run i with
  | ok a middle =>
    rw [read] at here
    exact rest a middle here
  | error e middle =>
    rw [read] at here
    exact here

theorem blaming_next {β : Type} {expected : Expectation} {f : Lexeme → Parser β}
    (rest : ∀ l, l ∈ all → Blaming all ending finish d β (f l)) :
    Blaming all ending finish d β (andThen (next expected) f) := by
  intro i inside
  obtain ⟨lexemes, ends, last, depth⟩ := i
  obtain rfl : last = finish := inside.finish
  cases lexemes with
  | cons l ls => exact rest l (inside.head rfl) _ inside.tail
  | nil =>
    cases ends with
    | finished p => exact .ended inside.ending.symm expected
    | failed e after => exact .lexical inside.ending.symm

/-- By induction on the rounds: each begins inside the lexemes, since the one before has stayed
    there. -/
theorem blaming_many {α β : Type} {lead : Token → Option α} {p : α → Parser β}
    (part : ∀ a, Blaming all ending finish d β (p a)) : Blaming all ending finish d (List β) (many lead p) := by
  intro i
  show Inside all ending finish d i → Traced all ending finish d (runMany lead p i)
  fun_induction runMany lead p i with
  | case1 | case2 => exact id
  | case3 i l lexemes a lead e rest read =>
    intro inside
    have here := part a _ inside.tail
    rw [read] at here
    exact here
  | case4 i l lexemes a lead b middle read e rest later ih =>
    intro inside
    have here := part a _ inside.tail
    rw [read] at here
    have further := ih here
    rw [later] at further
    exact further
  | case5 i l lexemes a lead b middle read bs rest later ih =>
    intro inside
    have here := part a _ inside.tail
    rw [read] at here
    have further := ih here
    rw [later] at further
    exact further

theorem blaming_deeper {α : Type} {p : Parser α} (h : Blaming all ending finish (d + 1) α p) :
    Blaming all ending finish d α (deeper p) := by
  intro i inside
  have here := h i.enter inside.enter
  simp only [deeper]
  cases read : p.run i.enter with
  | ok a rest =>
    rw [read] at here
    exact here.leave
  | error e rest =>
    rw [read] at here
    exact here

end Combinators

theorem blaming_invariant (all : List Lexeme) (ending : Ending) (finish : Position) :
    Invariant (· ∈ all) (Blaming all ending finish) where
  succeed _ _ inside := inside
  andThen := blaming_andThen
  unexpected expected _ inside := blames_failure inside expected
  failAt expected member _ _ := .found member expected
  failCall member _ _ := .call member
  peek := blaming_peek
  next := blaming_next
  accept? := blaming_accept?
  many := blaming_many
  deeper _ := blaming_deeper
  recursive {d α ι body x} h i inside := by
    show Traced all ending finish d ((within body (maxNesting - i.depth) x).run i)
    rw [inside.depth]
    exact h i inside

/-- The error of a parse has a cause in the lexemes of the text. -/
theorem blames_of_parse {text : String} {e : Error} (failed : Statement.parse text = .error e) :
    Blames (Cursor.start text).lexemes.1 (Cursor.start text).lexemes.2 (.finish text) e := by
  have whole := (blaming_invariant (Cursor.start text).lexemes.1 (Cursor.start text).lexemes.2
    (.finish text)).wholeStatement (Input.ofText text) ⟨List.suffix_rfl, rfl, rfl, rfl⟩
  unfold Statement.parse at failed
  cases read : wholeStatement.run (Input.ofText text) with
  | ok s rest =>
    rw [read] at failed
    cases failed
  | error f rest =>
    rw [read] at failed whole
    cases failed
    exact whole

/-! ## Places of causes -/

/-- A token of a text is not shown as the end of the input is. -/
theorem display_ne_endOfInput {t : Token} (lexical : t.IsLexical) : t.display ≠ Error.foundMessage none := by
  intro same
  have chars : t.display.toList = "end of input".toList := congrArg String.toList same
  cases t with
  | number digits =>
    obtain @⟨first, rest, all⟩ := lexical
    rw [Token.display, String.toList_ofList] at chars
    have digit := all first List.mem_cons_self
    rw [(List.cons.inj chars).1] at digit
    cases digit
  | ident name =>
    cases lexical with
    | @word letters word free =>
      rw [Token.display, String.toList_ofList] at chars
      subst chars
      have blank := word.2 ' ' (by decide)
      exact absurd blank (by decide +kernel)
    | reference index word =>
      rw [Token.display, String.toList_ofList] at chars
      exact absurd (List.cons.inj chars).1 (by decide)
  | keyword k => cases k <;> exact absurd chars (by decide)
  | asterisk | slash | plus | minus | equal | notEqual | lessThan | lessOrEqual | greaterThan | greaterOrEqual
  | openParen | closeParen | comma | semicolon => exact absurd chars (by decide)

/-- An error that points at its cause: at a place between two characters of the text, which is the
    end of the text exactly where the end is what was found, and before the character, the token or
    the name that the error is about. -/
structure PointsAt (text : String) (e : Error) (p : Position) (rest : List Char) : Prop where
  position : e.position? = some p
  place : p.At text rest
  boundary : String.Pos.Raw.IsValid text ⟨p.offset⟩
  character : ∀ q c, e = .foreignCharacter q c → rest.head? = some c
  ending : ∀ q expected found, e = .unexpected q expected found →
    (Error.foundMessage found = "end of input" ↔ p.offset = text.utf8ByteSize)
  token : ∀ q expected found, e = .unexpected q expected found → p.offset ≠ text.utf8ByteSize →
    ∃ t, ⟨p, t⟩ ∈ (Cursor.start text).lexemes.1 ∧ t.display = Error.foundMessage found
  call : ∀ q name, e = .unknownFunction q name → ⟨p, .ident name⟩ ∈ (Cursor.start text).lexemes.1

theorem offset_lt {text : String} {p : Position} {rest : List Char} (place : p.At text rest) (some : rest ≠ []) :
    p.offset < text.utf8ByteSize := by
  have size := place.offset
  have positive := byteSize_pos some
  omega

/-- Where a text ends, by the count over the whole text, is a place in it, with nothing behind. -/
theorem place_of_finish (text : String) : (Position.finish text).At text [] :=
  ⟨text.toList, (List.append_nil _).symm, finish_eq text⟩

theorem offset_end {text : String} {p : Position} (place : p.At text []) : p.offset = text.utf8ByteSize := by
  have size := place.offset
  exact size

section Causes

variable {text : String}

theorem place_of_lexeme {l : Lexeme} (member : l ∈ (Cursor.start text).lexemes.1) :
    ∃ rest, rest ≠ [] ∧ l.position.At text rest := by
  obtain ⟨slice, tail, place, some, _⟩ := (laid_text text).placed rfl l member
  exact ⟨slice ++ tail, by simp [some], place⟩

theorem pointsAt_found {l : Lexeme} (member : l ∈ (Cursor.start text).lexemes.1) (expected : Expectation)
    {rest : List Char} (some : rest ≠ []) (place : l.position.At text rest) :
    PointsAt text (.unexpected l.position expected (.some l.token)) l.position rest where
  position := rfl
  place := place
  boundary := place.boundary
  character := by rintro _ _ ⟨⟩
  ending := by
    rintro _ _ _ ⟨⟩
    have before := offset_lt place some
    have shown := display_ne_endOfInput (lexemes_lexical (Cursor.start text) l member)
    exact ⟨fun same => absurd same shown, fun same => by omega⟩
  token := by
    rintro _ _ _ ⟨⟩ _
    exact ⟨l.token, member, rfl⟩
  call := by rintro _ _ ⟨⟩

theorem pointsAt_call {p : Position} {name : String} (member : ⟨p, .ident name⟩ ∈ (Cursor.start text).lexemes.1)
    {rest : List Char} (place : p.At text rest) : PointsAt text (.unknownFunction p name) p rest where
  position := rfl
  place := place
  boundary := place.boundary
  character := by rintro _ _ ⟨⟩
  ending := by rintro _ _ _ ⟨⟩
  token := by rintro _ _ _ ⟨⟩
  call := by
    rintro _ _ ⟨⟩
    exact member

theorem pointsAt_end {p : Position} (place : p.At text []) (expected : Expectation) :
    PointsAt text (.unexpected p expected none) p [] where
  position := rfl
  place := place
  boundary := place.boundary
  character := by rintro _ _ ⟨⟩
  ending := by
    rintro _ _ _ ⟨⟩
    exact ⟨fun _ => offset_end place, fun _ => rfl⟩
  token := by
    rintro _ _ _ ⟨⟩ further
    exact absurd (offset_end place) further
  call := by rintro _ _ ⟨⟩

theorem pointsAt_character {p : Position} {c : Char} {tail : List Char} (place : p.At text (c :: tail)) :
    PointsAt text (.foreignCharacter p c) p (c :: tail) where
  position := rfl
  place := place
  boundary := place.boundary
  character := by
    rintro _ _ ⟨⟩
    rfl
  ending := by rintro _ _ _ ⟨⟩
  token := by rintro _ _ _ ⟨⟩
  call := by rintro _ _ ⟨⟩

/-- Where lexing stops with an error, the error points there, and not before the stop. -/
theorem pointsAt_stop {before start rest : List Char} {e : Error} {after : Cursor}
    (split : text.toList = before ++ start ++ rest) (stop : Stop before start rest (.failed e after)) :
    ∃ p, PointsAt text e p rest ∧ Text.byteSize before ≤ p.offset := by
  have further : Text.byteSize before ≤ (Position.behind (before ++ start)).offset := by
    show Text.byteSize before ≤ Text.byteSize (before ++ start)
    rw [byteSize_append]
    omega
  cases stop with
  | @foreign c tail _ =>
    rw [List.append_nil] at split
    exact ⟨_, pointsAt_character ⟨before, split, rfl⟩, Nat.le_refl _⟩
  | brokenAtEnd => exact ⟨_, pointsAt_end ⟨before ++ start, split, rfl⟩ _, further⟩
  | brokenBefore => exact ⟨_, pointsAt_character ⟨before ++ start, split, rfl⟩, further⟩

theorem stop_of_text (text : String) : ∃ before start rest, text.toList = before ++ start ++ rest ∧
    Stop before start rest (Cursor.start text).lexemes.2 ∧
    ∀ l ∈ (Cursor.start text).lexemes.1, l.stop ≤ Text.byteSize before := by
  obtain ⟨before, start, rest, split, stop, inside, _⟩ := (laid_text text).stops
  exact ⟨before, start, rest, split, stop, inside⟩

theorem pointsAt_of_blames {e : Error}
    (blames : Blames (Cursor.start text).lexemes.1 (Cursor.start text).lexemes.2 (.finish text) e) :
    ∃ p rest, PointsAt text e p rest := by
  obtain ⟨before, start, rest, split, stop, _⟩ := stop_of_text text
  cases blames with
  | found member expected =>
    obtain ⟨behind, some, place⟩ := place_of_lexeme member
    exact ⟨_, behind, pointsAt_found member expected some place⟩
  | call member =>
    obtain ⟨behind, _, place⟩ := place_of_lexeme member
    exact ⟨_, behind, pointsAt_call member place⟩
  | ended _ expected => exact ⟨_, [], pointsAt_end (place_of_finish text) expected⟩
  | lexical failed =>
    rw [failed] at stop
    obtain ⟨p, points, _⟩ := pointsAt_stop split stop
    exact ⟨p, rest, points⟩

/-- Where the lexemes end with an error, no cause lies behind it. -/
theorem blames_before {e first : Error} {after : Cursor} (failed : (Cursor.start text).lexemes.2 = .failed first after)
    (blames : Blames (Cursor.start text).lexemes.1 (Cursor.start text).lexemes.2 (.finish text) e) :
    ∃ p q, e.position? = some p ∧ first.position? = some q ∧ p.offset ≤ q.offset := by
  obtain ⟨before, start, rest, split, stop, inside⟩ := stop_of_text text
  rw [failed] at stop
  obtain ⟨q, points, further⟩ := pointsAt_stop split stop
  have early : ∀ l ∈ (Cursor.start text).lexemes.1, l.position.offset ≤ q.offset := by
    intro l member
    have behind := inside l member
    unfold Lexeme.stop at behind
    omega
  cases blames with
  | found member expected => exact ⟨_, q, rfl, points.position, early _ member⟩
  | call member => exact ⟨_, q, rfl, points.position, early _ member⟩
  | ended finished => cases failed.symm.trans finished
  | lexical same =>
    cases failed.symm.trans same
    exact ⟨q, q, points.position, points.position, Nat.le_refl _⟩

end Causes

/-- Every failed parse points at its cause in the text; and where the lexemes of the text end with an
    error the parse fails, at that place or before it. -/
theorem parse_fails_at (text : String) :
    (∀ e, Statement.parse text = .error e → ∃ p rest, PointsAt text e p rest) ∧
      ∀ first after, (Cursor.start text).lexemes.2 = .failed first after →
        ∃ e p q, Statement.parse text = .error e ∧ e.position? = some p ∧ first.position? = some q ∧
          p.offset ≤ q.offset := by
  refine ⟨fun e failed => pointsAt_of_blames (blames_of_parse failed), fun first after ends => ?_⟩
  cases parsed : Statement.parse text with
  | ok s =>
    obtain ⟨⟨position, finished⟩, _⟩ := (run_wholeStatement rfl).mp parsed
    have both : (Cursor.start text).lexemes.2 = .finished position := finished
    rw [ends] at both
    cases both
  | error e =>
    obtain ⟨p, q, here, there, order⟩ := blames_before ends (blames_of_parse parsed)
    exact ⟨e, p, q, rfl, here, there, order⟩

/-- The theorem at a text that begins with no statement, and in which a character behind the first
    word begins no lexeme. -/
theorem parse_fails_at_foreign :
    let text := "é ?"
    (Cursor.start text).lexemes =
        ([⟨⟨0, 1, 1⟩, .ident "é"⟩], .failed (.foreignCharacter ⟨3, 1, 3⟩ '?') ⟨['?'], ⟨3, 1, 3⟩⟩) ∧
      ∃ e p rest, Statement.parse text = .error e ∧ PointsAt text e p rest ∧ p.offset ≤ 3 := by
  intro text
  have word : (Cursor.start text).scan = (.lexeme ⟨⟨0, 1, 1⟩, .ident "é"⟩, ⟨[' ', '?'], ⟨2, 1, 2⟩⟩) := by
    decide +kernel
  have mark : (Cursor.mk [' ', '?'] ⟨2, 1, 2⟩).scan =
      (.failed (.foreignCharacter ⟨3, 1, 3⟩ '?'), ⟨['?'], ⟨3, 1, 3⟩⟩) := by
    decide +kernel
  have lexemes : (Cursor.start text).lexemes =
      ([⟨⟨0, 1, 1⟩, .ident "é"⟩], .failed (.foreignCharacter ⟨3, 1, 3⟩ '?') ⟨['?'], ⟨3, 1, 3⟩⟩) := by
    rw [lexemes_lexeme word, lexemes_failed mark]
  obtain ⟨causes, early⟩ := parse_fails_at text
  obtain ⟨e, p, q, failed, here, there, order⟩ := early _ _ (congrArg Prod.snd lexemes)
  obtain ⟨p', rest, points⟩ := causes e failed
  have same : p' = p := Option.some.inj (points.position.symm.trans here)
  have last : q = ⟨3, 1, 3⟩ := (Option.some.inj there).symm
  rw [last, ← same] at order
  exact ⟨lexemes, e, p', rest, failed, points, order⟩

end StreamQuery
