import Mathlib.Data.List.Find
import Mathlib.Data.List.Forall2
import StreamQuery.Proofs.LexemePlaces
import StreamQuery.Token.Core

/-!
# The core vocabulary among the lexemes

The core vocabulary is read in a way of its own: its keywords are tried one after another at the
beginning of a word, up to the case of the letters A to Z, where lexing takes the whole word first
and compares its full lower case. Both find the same. What they share of a text is a run of words
and statement ends with blanks between them (`Shared`); behind it stands the end of the text or a
character that the core vocabulary has no token for.
-/

namespace StreamQuery

open Text

/-! ## Words of the core vocabulary -/

/-- The token of a word: a keyword if it spells one in any case of the letters A to Z, otherwise an
    identifier. -/
def CoreToken.ofWord (word : List Char) : CoreToken :=
  match keywords.find? fun (keyword, _) => word.map Char.toLower == keyword.toList with
  | some (_, token) => token
  | none => identifier (String.ofList word)

section Words

variable {word rest : List Char} (all : ∀ c ∈ word, isWordChar c = true)
  (stop : ∀ c ∈ rest.head?, isWordChar c = false)

include all stop

/-- A keyword opens a text exactly if it is the whole word there. A keyword that is longer or shorter
    than the word does not end where a word ends. -/
theorem opens_eq {keyword : String} (letters : keyword.toList.all Char.isAlpha = true) :
    CoreToken.opens keyword (word ++ rest) = (word.map Char.toLower == keyword.toList) := by
  rw [Bool.eq_iff_iff]
  unfold CoreToken.opens
  simp only [Bool.and_eq_true, beq_iff_eq, Bool.not_eq_true']
  constructor
  · rintro ⟨same, ends⟩
    have inWord : ∀ c ∈ (word ++ rest).take keyword.toList.length, isWordChar c = true := fun c member => by
      refine wordChar_of_alphabetic (letter_of_toLower (List.all_eq_true.mp letters c.toLower ?_)).2
      rw [← same]
      exact List.mem_map_of_mem member
    have behind : ∀ c ∈ ((word ++ rest).drop keyword.toList.length).head?, isWordChar c = false := fun c head => by
      rw [Option.mem_def.mp head] at ends
      exact ends
    have whole := takeWhile_append inWord behind
    rw [List.take_append_drop, takeWhile_append all stop] at whole
    rw [whole]
    exact same
  · intro same
    have length := congrArg List.length same
    rw [List.length_map] at length
    rw [← length, List.take_left, List.drop_left]
    refine ⟨same, ?_⟩
    cases next : rest.head? with
    | none => rfl
    | some c => exact stop c next

theorem find_opens :
    (CoreToken.keywords.find? fun (keyword, _) => CoreToken.opens keyword (word ++ rest)) =
      CoreToken.keywords.find? fun (keyword, _) => word.map Char.toLower == keyword.toList := by
  have letters : CoreToken.keywords.all (fun (keyword, _) => keyword.toList.all Char.isAlpha) = true := by decide
  refine List.find?_congr fun (keyword, token) member => ?_
  have inKeyword : keyword.toList.all Char.isAlpha = true := List.all_eq_true.mp letters _ member
  exact opens_eq all stop inKeyword

end Words

theorem core_word {first : Char} {tail rest : List Char} (letter : isAlphabetic first = true)
    (all : ∀ c ∈ tail, isWordChar c = true) (stop : ∀ c ∈ rest.head?, isWordChar c = false) :
    CoreToken.of? first (tail ++ rest) = some (.ofWord (first :: tail), tail.length) := by
  have inWord : ∀ c ∈ first :: tail, isWordChar c = true :=
    List.forall_mem_cons.mpr ⟨wordChar_of_alphabetic letter, all⟩
  have noEnd : first ≠ ';' := by
    rintro rfl
    exact absurd letter (by decide)
  have tried := find_opens inWord stop
  rw [List.cons_append] at tried
  unfold CoreToken.of? CoreToken.ofWord
  rw [if_neg noEnd, tried]
  cases found : CoreToken.keywords.find? fun (keyword, _) => (first :: tail).map Char.toLower == keyword.toList with
  | some entry =>
    have same := List.find?_some found
    have length := congrArg List.length (beq_iff_eq.mp same)
    rw [List.length_map, List.length_cons] at length
    simp only [← length, Nat.add_sub_cancel]
  | none => simp only [if_pos letter, takeWhile_append all stop]

/-- Where there is neither a word nor the end of a statement, no token of the core vocabulary begins. -/
theorem core_none {first : Char} {cs : List Char} (noEnd : first ≠ ';') (noLetter : isAlphabetic first = false) :
    CoreToken.of? first cs = none := by
  have letters : CoreToken.keywords.all (fun (keyword, _) => keyword.toList.head?.any Char.isAlpha) = true := by decide
  have none : (CoreToken.keywords.find? fun (keyword, _) => CoreToken.opens keyword (first :: cs)) = none := by
    refine List.find?_eq_none.mpr fun (keyword, token) member opens => ?_
    have letter : keyword.toList.head?.any Char.isAlpha = true := List.all_eq_true.mp letters _ member
    simp only [CoreToken.opens, Bool.and_eq_true, beq_iff_eq] at opens
    cases spelling : keyword.toList with
    | nil =>
      rw [spelling] at letter
      cases letter
    | cons d tail =>
      rw [spelling] at letter opens
      have same : first.toLower = d := (List.cons.inj opens.1).1
      have alphabetic := (letter_of_toLower (same ▸ letter)).2
      rw [noLetter] at alphabetic
      cases alphabetic
  unfold CoreToken.of?
  rw [if_neg noEnd, none, noLetter]
  rfl

/-! ## Tokens that stand for one another -/

/-- A token of the core vocabulary stands for a lexeme of a text: the end of a statement for a
    semicolon, its keywords and identifiers for the same ones, and an identifier as the text has it
    for any other keyword. -/
inductive Lexeme.Counterpart (text : String) : Lexeme → CoreToken → Prop where
  | statementEnd {p : Position} : Counterpart text ⟨p, .semicolon⟩ .statementEnd
  | select {p : Position} : Counterpart text ⟨p, .keyword .SELECT⟩ .select
  | true {p : Position} : Counterpart text ⟨p, .keyword .TRUE⟩ .true
  | false {p : Position} : Counterpart text ⟨p, .keyword .FALSE⟩ .false
  | rename {p : Position} : Counterpart text ⟨p, .keyword .AS⟩ .rename
  | identifier {p : Position} {name : String} : Counterpart text ⟨p, .ident name⟩ (.identifier name)
  | keyword {p : Position} {k : Keyword} {word rest : List Char} (other : k ∉ [.SELECT, .TRUE, .FALSE, .AS])
      (place : p.At text (word ++ rest)) (spelled : (Token.keyword k).SpelledBy word) :
      Counterpart text ⟨p, .keyword k⟩ (.identifier (String.ofList word))

/-- The core vocabulary takes a word that spells a keyword for the keyword itself, or for an
    identifier if it lacks the keyword. -/
theorem core_keyword {k : Keyword} {word : List Char} (spelled : (Token.keyword k).SpelledBy word) :
    CoreToken.ofWord word = match k with
      | .SELECT => .select
      | .TRUE => .true
      | .FALSE => .false
      | .AS => .rename
      | _ => .identifier (String.ofList word) := by
  have lower : word.map Char.toLower = k.spelling.toList.map Char.toLower := spelled
  unfold CoreToken.ofWord
  rw [lower]
  cases k <;> rfl

/-- What is no keyword of the whole vocabulary is none of the core. -/
theorem core_identifier {word : List Char} (free : Keyword.ofWord? (String.ofList word) = none) :
    CoreToken.ofWord word = .identifier (String.ofList word) := by
  have among : CoreToken.keywords.all (fun (keyword, _) => [Keyword.SELECT, .TRUE, .FALSE, .AS].any fun k =>
      k.spelling.toList.map Char.toLower == keyword.toList) = true := by decide
  have none : (CoreToken.keywords.find? fun (keyword, _) => word.map Char.toLower == keyword.toList) = none := by
    refine List.find?_eq_none.mpr fun entry member same => ?_
    obtain ⟨k, _, spelling⟩ := List.any_eq_true.mp (List.all_eq_true.mp among entry member)
    have spelled : (Token.keyword k).SpelledBy word := (beq_iff_eq.mp same).trans (beq_iff_eq.mp spelling).symm
    rw [ofWord?_of_spelled spelled] at free
    cases free
  unfold CoreToken.ofWord
  rw [none]

/-- The two tokens of a word stand for one another. -/
theorem counterpart_word {text : String} {p : Position} {word rest : List Char} (place : p.At text (word ++ rest)) :
    Lexeme.Counterpart text ⟨p, .ofWord (String.ofList word)⟩ (.ofWord word) := by
  unfold Token.ofWord
  cases found : Keyword.ofWord? (String.ofList word) with
  | none =>
    rw [core_identifier found]
    exact .identifier
  | some k =>
    have spelled := spelled_of_ofWord? found
    have other : ∀ token : CoreToken, token = .identifier (String.ofList word) → k ∉ [.SELECT, .TRUE, .FALSE, .AS] →
        Lexeme.Counterpart text ⟨p, .keyword k⟩ token := by
      rintro _ rfl apart
      exact .keyword apart place spelled
    rw [core_keyword spelled]
    cases k with
    | SELECT => exact .select
    | TRUE => exact .true
    | FALSE => exact .false
    | AS => exact .rename
    | _ => exact other _ rfl (by decide)

/-! ## What both read -/

/-- What both vocabularies read as one token before the rest of a text, and their tokens for it: the
    end of a statement, or a whole word. -/
inductive ReadByBoth : List Char → List Char → Token → CoreToken → Prop where
  | statementEnd {rest : List Char} : ReadByBoth [';'] rest .semicolon .statementEnd
  | word {first : Char} {tail rest : List Char} (letter : isAlphabetic first = true)
      (all : ∀ c ∈ tail, isWordChar c = true) (stop : ∀ c ∈ rest.head?, isWordChar c = false) :
      ReadByBoth (first :: tail) rest (.ofWord (String.ofList (first :: tail))) (.ofWord (first :: tail))

/-- A beginning of a text that both vocabularies read, behind some other text and before the given
    rest: the lexemes and the tokens of the core vocabulary, with blanks before each. -/
inductive Shared (rest : List Char) : List Char → List Char → List Lexeme → List CoreToken → Prop where
  | nothing {before : List Char} : Shared rest before [] [] []
  | token {before blanks slice read : List Char} {t : Token} {u : CoreToken} {lexemes : List Lexeme}
      {tokens : List CoreToken} (blank : ∀ c ∈ blanks, isBlank c = true) (first : ReadByBoth slice (read ++ rest) t u)
      (later : Shared rest (before ++ blanks ++ slice) read lexemes tokens) :
      Shared rest before (blanks ++ slice ++ read) (⟨.behind (before ++ blanks), t⟩ :: lexemes) (u :: tokens)

namespace ReadByBoth

variable {slice rest : List Char} {t : Token} {u : CoreToken}

theorem counterpart (read : ReadByBoth slice rest t u) {text : String} {p : Position}
    (place : p.At text (slice ++ rest)) : Lexeme.Counterpart text ⟨p, t⟩ u := by
  cases read with
  | statementEnd => exact .statementEnd
  | word => exact counterpart_word place

theorem spelled (read : ReadByBoth slice rest t u) : t.SpelledBy slice := by
  cases read with
  | statementEnd => rfl
  | @word first tail =>
    have token : Token.ofWord (String.ofList (first :: tail)) = _ := rfl
    exact spelled_ofWord token

/-- Both read it from its first character on, which is no blank. -/
theorem readings (read : ReadByBoth slice rest t u) :
    ∃ first tail, slice = first :: tail ∧ isBlank first = false ∧
      Reading.of first (tail ++ rest) = .lexeme t tail.length ∧
      CoreToken.of? first (tail ++ rest) = some (u, tail.length) := by
  cases read with
  | statementEnd =>
    obtain ⟨dollar, digit, letter, blank⟩ := symbols_spec (c := ';') (by simp [symbols])
    refine ⟨';', [], rfl, blank, ?_, rfl⟩
    unfold Reading.of
    rw [if_neg dollar, digit, letter]
    rfl
  | @word first tail _ letter all stop =>
    have noBlank := not_blank_of_wordChar (wordChar_of_alphabetic letter)
    exact ⟨first, tail, rfl, noBlank, reading_whole_word letter all stop, core_word letter all stop⟩

/-- It is read alike where the text breaks off later. -/
theorem shorten {more : List Char} (read : ReadByBoth slice (rest ++ more) t u) : ReadByBoth slice rest t u := by
  cases read with
  | statementEnd => exact .statementEnd
  | word letter all stop =>
    refine .word letter all fun c head => stop c ?_
    rw [List.head?_append, Option.mem_def.mp head]
    rfl

end ReadByBoth

/-- Where a statement ends or a word begins, both read a token. -/
theorem exists_readByBoth {first : Char} (begins : first = ';' ∨ isAlphabetic first = true) (cs : List Char) :
    ∃ tail rest t u, cs = tail ++ rest ∧ ReadByBoth (first :: tail) rest t u := by
  rcases begins with rfl | letter
  · exact ⟨[], cs, _, _, rfl, .statementEnd⟩
  · obtain ⟨tail, rest, split, all, stop⟩ := split_run isWordChar cs
    exact ⟨tail, rest, _, _, split, .word letter all stop⟩

section Cursors

variable (before : List Char) {blanks : List Char} (blank : ∀ c ∈ blanks, isBlank c = true)

include blank

theorem tokensAt_end : CoreToken.tokensAt ⟨blanks, .behind before⟩ = .ok [] := by
  have here := skipBlanks_behind before blank [] (by simp)
  rw [List.append_nil] at here
  rw [CoreToken.tokensAt]
  split
  · rfl
  · rename_i other
    rw [here] at other
    cases other

theorem tokensAt_begins {first : Char} {cs : List Char} (begins : isBlank first = false) :
    CoreToken.tokensAt ⟨blanks ++ first :: cs, .behind before⟩ =
      match CoreToken.of? first cs with
      | none => .error (.foreignCharacter (.behind (before ++ blanks)) first)
      | some (token, more) => (token :: ·) <$>
          CoreToken.tokensAt (Cursor.advance ⟨first :: cs, .behind (before ++ blanks)⟩ (more + 1)) := by
  have here := skipBlanks_behind before blank (first :: cs) (by simpa using begins)
  rw [CoreToken.tokensAt]
  split
  · rename_i other
    rw [here] at other
    cases other
  · rename_i other
    rw [here] at other ⊢
    cases other
    rfl

end Cursors

section Step

variable (before : List Char) {blanks slice rest : List Char} {t : Token} {u : CoreToken}
  (read : ReadByBoth slice rest t u) (blank : ∀ c ∈ blanks, isBlank c = true)

include read blank

theorem scan_readByBoth :
    Cursor.scan ⟨blanks ++ (slice ++ rest), .behind before⟩ =
      (.lexeme ⟨.behind (before ++ blanks), t⟩, ⟨rest, .behind (before ++ blanks ++ slice)⟩) := by
  obtain ⟨first, tail, rfl, begins, reading, _⟩ := read.readings
  have here := skipBlanks_behind before blank (first :: (tail ++ rest)) (by simpa using begins)
  unfold Cursor.scan
  simp only [List.cons_append, here, reading]
  rw [← advance_eq (c := ⟨first :: (tail ++ rest), .behind (before ++ blanks)⟩) rfl rfl]
  rfl

theorem tokensAt_readByBoth :
    CoreToken.tokensAt ⟨blanks ++ (slice ++ rest), .behind before⟩ =
      (u :: ·) <$> CoreToken.tokensAt ⟨rest, .behind (before ++ blanks ++ slice)⟩ := by
  obtain ⟨first, tail, rfl, begins, _, reading⟩ := read.readings
  rw [List.cons_append, tokensAt_begins _ blank begins, reading]
  rw [← advance_eq (c := ⟨first :: (tail ++ rest), .behind (before ++ blanks)⟩) rfl rfl]
  rfl

end Step

/-! ## Runs -/

namespace Shared

variable {before read rest : List Char} {lexemes : List Lexeme} {tokens : List CoreToken}

theorem lexemes_eq (shared : Shared rest before read lexemes tokens) :
    Cursor.lexemes ⟨read ++ rest, .behind before⟩ =
      (lexemes ++ (Cursor.lexemes ⟨rest, .behind (before ++ read)⟩).1,
        (Cursor.lexemes ⟨rest, .behind (before ++ read)⟩).2) := by
  induction shared with
  | nothing => rw [List.append_nil]; rfl
  | @token before blanks slice read t u lexemes tokens blank first later ih =>
    have scanned := scan_readByBoth before first blank
    rw [List.append_assoc, List.append_assoc, lexemes_lexeme scanned, ih]
    simp only [List.append_assoc, List.cons_append]

theorem tokensAt_eq (shared : Shared rest before read lexemes tokens) :
    CoreToken.tokensAt ⟨read ++ rest, .behind before⟩ =
      (tokens ++ ·) <$> CoreToken.tokensAt ⟨rest, .behind (before ++ read)⟩ := by
  induction shared with
  | nothing =>
    rw [List.append_nil, List.nil_append]
    exact (id_map _).symm
  | @token before blanks slice read t u lexemes tokens blank first later ih =>
    rw [List.append_assoc, List.append_assoc, tokensAt_readByBoth _ first blank, ih]
    simp only [List.append_assoc]
    exact (comp_map _ _ _).symm

theorem shorten {more : List Char} (shared : Shared (rest ++ more) before read lexemes tokens) :
    Shared rest before read lexemes tokens := by
  induction shared with
  | nothing => exact .nothing
  | token blank first later ih =>
    rw [← List.append_assoc] at first
    exact .token blank first.shorten ih

theorem counterparts (shared : Shared rest before read lexemes tokens) {text : String}
    (split : text.toList = before ++ (read ++ rest)) : List.Forall₂ (Lexeme.Counterpart text) lexemes tokens := by
  induction shared with
  | nothing => exact .nil
  | @token before blanks slice read t u lexemes tokens blank first later ih =>
    refine .cons (first.counterpart ⟨before ++ blanks, ?_, rfl⟩) (ih ?_)
    · rw [split]
      simp
    · rw [split]
      simp

theorem inside (shared : Shared rest before read lexemes tokens) :
    ∀ l ∈ lexemes, l.stop ≤ byteSize (before ++ read) := by
  induction shared with
  | nothing => simp
  | @token before blanks slice read t u lexemes tokens blank first later ih =>
    rw [← List.append_assoc, ← List.append_assoc, List.forall_mem_cons]
    refine ⟨?_, ih⟩
    have size := size_of_spelled first.spelled
    have whole : byteSize (before ++ blanks ++ slice ++ read) =
        byteSize (before ++ blanks) + byteSize slice + byteSize read := by
      rw [byteSize_append _ read, byteSize_append _ slice]
    show byteSize (before ++ blanks) + t.display.utf8ByteSize ≤ _
    omega

end Shared

/-- A character that no token of the core vocabulary begins with, and that is no blank either. -/
structure OutsideCore (c : Char) : Prop where
  blank : isBlank c = false
  noEnd : c ≠ ';'
  letter : isAlphabetic c = false

/-- Both vocabularies share a text up to the blanks before its end or before a character outside the
    core. -/
theorem exists_shared (before text : List Char) :
    ∃ read blanks rest lexemes tokens, text = read ++ (blanks ++ rest) ∧
      Shared (blanks ++ rest) before read lexemes tokens ∧ (∀ c ∈ blanks, isBlank c = true) ∧
      ∀ c ∈ rest.head?, OutsideCore c := by
  obtain ⟨blanks, behind, split, blank, noBlank⟩ := split_run isBlank text
  rw [split]
  cases behind with
  | nil => exact ⟨[], blanks, [], [], [], rfl, .nothing, blank, by simp⟩
  | cons first cs =>
    by_cases begins : first = ';' ∨ isAlphabetic first = true
    · obtain ⟨tail, behind, t, u, whole, both⟩ := exists_readByBoth begins cs
      have shorter : behind.length < text.length := by
        rw [split, whole, List.length_append, List.length_cons, List.length_append]
        omega
      obtain ⟨read, blanks', rest, lexemes, tokens, further, shared, blank', outside⟩ :=
        exists_shared (before ++ blanks ++ first :: tail) behind
      rw [further] at both
      exact ⟨_, blanks', rest, _, _, by simp [whole, further], .token blank both shared, blank', outside⟩
    · rw [not_or] at begins
      refine ⟨[], blanks, first :: cs, [], [], rfl, .nothing, blank, fun c head => ?_⟩
      cases head
      exact ⟨noBlank first rfl, begins.1, by simpa using begins.2⟩
termination_by text.length

/-! ## Where the core vocabulary ends -/

/-- A token that the core vocabulary has no counterpart of: a number, an operator, a parenthesis, a
    comma, or a reference. -/
def Token.OutsideCore : Token → Prop
  | .keyword _ | .semicolon => False
  | .ident name => name.toList.head? = some '$'
  | _ => True

/-- What lexing finds from a place on where the core vocabulary ends: first a token outside it that
    begins there, or nothing but an error, there or later. -/
inductive LeavesCore (p : Position) : List Lexeme → Ending → Prop where
  | token {l : Lexeme} {later : List Lexeme} {ending : Ending} (place : l.position = p)
      (outside : l.token.OutsideCore) : LeavesCore p (l :: later) ending
  | failed {error : Error} {after : Cursor} {q : Position} (place : error.position? = some q)
      (reached : p.offset ≤ q.offset) : LeavesCore p [] (.failed error after)

theorem position_failure (c : Cursor) (expected : Expectation) :
    (c.failure expected).position? = some c.position := by
  unfold Cursor.failure
  cases c.rest with
  | nil => rfl
  | cons found rest => rfl

theorem OutsideCore.token {first : Char} {tail : List Char} {t : Token} (outside : OutsideCore first)
    (spelled : t.SpelledBy (first :: tail)) (lexical : t.IsLexical) : t.OutsideCore := by
  cases t with
  | keyword k =>
    have letter := (letters_of_spelled spelled first List.mem_cons_self).2
    rw [outside.letter] at letter
    cases letter
  | semicolon => exact outside.noEnd (List.cons.inj spelled).1
  | ident name =>
    have spelling : first :: tail = name.toList := spelled
    cases lexical with
    | @word cs word free =>
      rw [String.toList_ofList] at spelling
      rw [← spelling] at word
      have letter := word.1
      rw [outside.letter] at letter
      cases letter
    | reference =>
      show (String.toList _).head? = _
      rw [String.toList_ofList]
      rfl
  | _ => trivial

theorem leavesCore {before blanks cs : List Char} {first : Char} (blank : ∀ c ∈ blanks, isBlank c = true)
    (outside : OutsideCore first) :
    LeavesCore (.behind (before ++ blanks)) (Cursor.lexemes ⟨blanks ++ first :: cs, .behind before⟩).1
      (Cursor.lexemes ⟨blanks ++ first :: cs, .behind before⟩).2 := by
  have here := skipBlanks_behind before blank (first :: cs) (by simpa using outside.blank)
  cases read : Reading.of first cs with
  | lexeme t more =>
    obtain ⟨tail, rest, rfl, rfl, spelled, _⟩ := reading_spelled read
    have scanned : Cursor.scan ⟨blanks ++ first :: (tail ++ rest), .behind before⟩ =
        (.lexeme ⟨.behind (before ++ blanks), t⟩, Cursor.advance ⟨first :: (tail ++ rest), .behind (before ++ blanks)⟩
          (tail.length + 1)) := by
      unfold Cursor.scan
      simp only [here, read]
    rw [lexemes_lexeme scanned]
    exact .token rfl (outside.token spelled (reading_lexical read))
  | broken n expected =>
    obtain ⟨start, rest, whole, rfl, _⟩ := reading_broken read
    have stuck : Cursor.advance ⟨first :: cs, .behind (before ++ blanks)⟩ start.length =
        ⟨rest, .behind (before ++ blanks ++ start)⟩ := advance_eq rfl whole
    have scanned : Cursor.scan ⟨blanks ++ first :: cs, .behind before⟩ =
        (.failed (Cursor.failure ⟨rest, .behind (before ++ blanks ++ start)⟩ expected),
          ⟨rest, .behind (before ++ blanks ++ start)⟩) := by
      unfold Cursor.scan
      simp only [here, read, stuck]
    rw [lexemes_failed scanned]
    refine .failed (position_failure _ _) ?_
    show byteSize (before ++ blanks) ≤ byteSize (before ++ blanks ++ start)
    rw [byteSize_append _ start]
    omega
  | foreign =>
    have scanned : Cursor.scan ⟨blanks ++ first :: cs, .behind before⟩ =
        (.failed (.foreignCharacter (.behind (before ++ blanks)) first), ⟨first :: cs, .behind (before ++ blanks)⟩) := by
      unfold Cursor.scan
      simp only [here, read]
    rw [lexemes_failed scanned]
    exact .failed rfl (Nat.le_refl _)

/-- How the core vocabulary parts from lexing at a character of a text: the text before it has the
    tokens of the lexemes that lie there, and behind these lexing leaves the core. -/
structure Parting (text : String) (before : List Char) (c : Char) (tokens : List CoreToken)
    (lexemes later : List Lexeme) (ending : Ending) : Prop where
  place : ∃ after, text.toList = before ++ c :: after
  tokens_before : CoreToken.tokens (String.ofList before) = .ok tokens
  lexemes_all : (Cursor.start text).lexemes = (lexemes ++ later, ending)
  counterparts : List.Forall₂ (Lexeme.Counterpart text) lexemes tokens
  inside : ∀ l ∈ lexemes, l.stop ≤ byteSize before
  leaves : LeavesCore (.behind before) later ending

namespace Shared

variable {text : String} {read blanks : List Char} {lexemes : List Lexeme} {tokens : List CoreToken}
  (blank : ∀ c ∈ blanks, isBlank c = true)

include blank

/-- What is shared of a text up to the blanks at its end is all of it. -/
theorem whole (shared : Shared blanks [] read lexemes tokens) (split : text.toList = read ++ blanks) :
    CoreToken.tokens text = .ok tokens ∧ ∃ p, (Cursor.start text).lexemes = (lexemes, .finished p) := by
  have allTokens := shared.tokensAt_eq
  have allLexemes := shared.lexemes_eq
  rw [tokensAt_end _ blank, ← start_eq split] at allTokens
  have finished : Cursor.lexemes ⟨blanks, .behind ([] ++ read)⟩ = ([], .finished _) :=
    lexemes_finished (scan_blank blank)
  rw [finished, ← start_eq split, List.append_nil] at allLexemes
  have all : CoreToken.tokens text = .ok (tokens ++ []) := allTokens
  rw [List.append_nil] at all
  exact ⟨all, _, allLexemes⟩

/-- Behind what is shared and blanks, a character outside the core is where the core vocabulary
    fails. -/
theorem parting {c : Char} {after : List Char} (shared : Shared (blanks ++ c :: after) [] read lexemes tokens)
    (outside : OutsideCore c) (split : text.toList = read ++ (blanks ++ c :: after)) :
    CoreToken.tokens text = .error (.foreignCharacter (.behind (read ++ blanks)) c) ∧
      ∃ later ending, Parting text (read ++ blanks) c tokens lexemes later ending := by
  have allTokens := shared.tokensAt_eq
  have allLexemes := shared.lexemes_eq
  rw [tokensAt_begins _ blank outside.blank, core_none outside.noEnd outside.letter, ← start_eq split] at allTokens
  rw [← start_eq split] at allLexemes
  refine ⟨allTokens, _, _, ⟨after, ?_⟩, (shared.shorten.whole blank String.toList_ofList).1, allLexemes,
    shared.counterparts split, fun l member => ?_, leavesCore blank outside⟩
  · rw [split, List.append_assoc]
  · have within := shared.inside l member
    rw [List.nil_append] at within
    rw [byteSize_append]
    omega

end Shared

/-- The core vocabulary reads what lexing reads. Where it has tokens for a whole text, they stand for
    the lexemes of the text, one for each and in their order, and lexing fails nowhere. Where it fails,
    it does so at a character of the text where the two part: up to there they agree, and lexing goes on
    with a token outside the core that begins at the character, or with an error no earlier. -/
theorem core_tokens_agree (text : String) :
    (∀ tokens, CoreToken.tokens text = .ok tokens →
      ∃ lexemes p, (Cursor.start text).lexemes = (lexemes, .finished p) ∧
        List.Forall₂ (Lexeme.Counterpart text) lexemes tokens) ∧
    ∀ e, CoreToken.tokens text = .error e →
      ∃ before c tokens lexemes later ending, e = .foreignCharacter (.behind before) c ∧
        Parting text before c tokens lexemes later ending := by
  obtain ⟨read, blanks, rest, lexemes, tokens, split, shared, blank, outside⟩ := exists_shared [] text.toList
  cases rest with
  | nil =>
    have stand := shared.counterparts split
    rw [List.append_nil] at shared split
    obtain ⟨all, p, finished⟩ := shared.whole blank split
    constructor
    · intro ts same
      cases all.symm.trans same
      exact ⟨lexemes, p, finished, stand⟩
    · intro e same
      cases all.symm.trans same
  | cons c after =>
    obtain ⟨fails, later, ending, parting⟩ := shared.parting blank (outside c rfl) split
    constructor
    · intro ts same
      cases fails.symm.trans same
    · intro e same
      cases fails.symm.trans same
      exact ⟨read ++ blanks, c, tokens, lexemes, later, ending, rfl, parting⟩

/-- The theorem at a text with a keyword outside the core, which both read to its end, and at one where
    a number comes first that the core has no token for. -/
theorem core_tokens_agree_order :
    (CoreToken.tokens "True selected Order;" =
        .ok [.true, .identifier "selected", .identifier "Order", .statementEnd] ∧
      ∃ lexemes p, (Cursor.start "True selected Order;").lexemes = (lexemes, .finished p) ∧
        List.Forall₂ (Lexeme.Counterpart "True selected Order;") lexemes
          [.true, .identifier "selected", .identifier "Order", .statementEnd]) ∧
    CoreToken.tokens "as\n  1;" = .error (.foreignCharacter ⟨5, 2, 3⟩ '1') ∧
      ∃ before c tokens lexemes later ending,
        Error.foreignCharacter ⟨5, 2, 3⟩ '1' = .foreignCharacter (.behind before) c ∧
        Parting "as\n  1;" before c tokens lexemes later ending := by
  have reads : CoreToken.tokens "True selected Order;" =
      .ok [.true, .identifier "selected", .identifier "Order", .statementEnd] := by with_unfolding_all rfl
  have fails : CoreToken.tokens "as\n  1;" = .error (.foreignCharacter ⟨5, 2, 3⟩ '1') := by with_unfolding_all rfl
  exact ⟨⟨reads, (core_tokens_agree _).1 _ reads⟩, fails, (core_tokens_agree _).2 _ fails⟩

end StreamQuery
