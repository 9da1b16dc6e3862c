import Mathlib.Data.List.TakeWhile
import StreamQuery.Proofs.LetterCase
import StreamQuery.Proofs.Rendering
import StreamQuery.Token.Scan

/-!
# Lexing renderings

A token that is spelled and followed by a blank or the end is read as itself, so the tokens of a
rendering are those that were rendered. In the other direction every token that is read is one
that some text has.
-/

namespace StreamQuery

open Text

/-! ## Keywords -/

theorem letters_of_spelled {k : Keyword} {cs : List Char} (spelled : (Token.keyword k).SpelledBy cs) :
    ∀ c ∈ cs, c.toNat < 128 ∧ isAlphabetic c = true := by
  intro c member
  have letters : (k.spelling.toList.map Char.toLower).all Char.isAlpha = true := by
    cases k <;> decide
  refine letter_of_toLower (List.all_eq_true.mp letters c.toLower ?_)
  have same : cs.map Char.toLower = k.spelling.toList.map Char.toLower := spelled
  rw [← same]
  exact List.mem_map_of_mem member

theorem spelling_ne_nil (k : Keyword) : k.spelling.toList ≠ [] := by
  cases k <;> decide

theorem lowerCase_spelling (k : Keyword) :
    lowerCase k.spelling = String.ofList (k.spelling.toList.map Char.toLower) :=
  congrArg String.ofList (lowerCase_ascii fun c member => (letters_of_spelled (k := k) rfl c member).1)

/-- The words by which keywords are found are the spellings of the keywords in small letters. -/
theorem ofWord?_eq_some_iff {word : String} {k : Keyword} :
    Keyword.ofWord? word = some k ↔ lowerCase word = String.ofList (k.spelling.toList.map Char.toLower) := by
  constructor
  · intro found
    unfold Keyword.ofWord? at found
    split at found
    all_goals cases found
    all_goals assumption
  · intro same
    rw [Keyword.ofWord?, same]
    cases k <;> rfl

/-- A word that spells a keyword up to the case of the letters A to Z is that keyword. -/
theorem ofWord?_of_spelled {k : Keyword} {cs : List Char} (spelled : (Token.keyword k).SpelledBy cs) :
    Keyword.ofWord? (String.ofList cs) = some k := by
  rw [ofWord?_eq_some_iff]
  unfold lowerCase
  rw [String.toList_ofList, lowerCase_ascii fun c member => (letters_of_spelled spelled c member).1]
  exact congrArg String.ofList spelled

theorem keyword_plain (k : Keyword) : ∀ c ∈ k.spelling.toList.map Char.toLower, IsPlain c := by
  have all : (k.spelling.toList.map Char.toLower).all (fun c => decide (IsPlain c)) = true := by
    cases k <;> decide
  exact fun c member => of_decide_eq_true (List.all_eq_true.mp all c member)

/-- No other words are keywords: no letter outside ASCII stands for one of a keyword. -/
theorem spelled_of_ofWord? {k : Keyword} {cs : List Char} (found : Keyword.ofWord? (String.ofList cs) = some k) :
    (Token.keyword k).SpelledBy cs := by
  have same := ofWord?_eq_some_iff.mp found
  unfold lowerCase at same
  rw [String.toList_ofList] at same
  exact (lower_eq_plain (keyword_plain k)).mp (String.ofList_injective same)

/-! ## Reading one token -/

theorem takeWhile_word {cs rest : List Char} (word : ∀ c ∈ cs, isWordChar c = true)
    (apart : ∀ c ∈ rest.head?, isBlank c = true) : (cs ++ rest).takeWhile isWordChar = cs :=
  takeWhile_append word fun c head => (blank_spec (apart c head)).1

theorem takeWhile_digits {cs rest : List Char} (digits : ∀ c ∈ cs, isDigit c = true)
    (apart : ∀ c ∈ rest.head?, isBlank c = true) : (cs ++ rest).takeWhile isDigit = cs :=
  takeWhile_append digits fun c head => (blank_spec (apart c head)).2.1

theorem reading_whole_word {first : Char} {tail rest : List Char} (letter : isAlphabetic first = true)
    (all : ∀ c ∈ tail, isWordChar c = true) (stop : ∀ c ∈ rest.head?, isWordChar c = false) :
    Reading.of first (tail ++ rest) = .lexeme (.ofWord (String.ofList (first :: tail))) tail.length := by
  unfold Reading.of
  rw [if_neg (ne_dollar_of_alphabetic letter), if_neg (by rw [not_digit_of_alphabetic letter]; decide), if_pos letter]
  unfold Reading.word
  rw [takeWhile_append all stop]

theorem reading_word {first : Char} {tail rest : List Char} (word : IsWord (first :: tail))
    (apart : ∀ c ∈ rest.head?, isBlank c = true) :
    Reading.of first (tail ++ rest) = .lexeme (.ofWord (String.ofList (first :: tail))) tail.length :=
  reading_whole_word word.1 word.2 fun c head => (blank_spec (apart c head)).1

theorem reading_number {first : Char} {tail rest : List Char} (digits : ∀ c ∈ first :: tail, isDigit c = true)
    (apart : ∀ c ∈ rest.head?, isBlank c = true) :
    Reading.of first (tail ++ rest) = .lexeme (.number (String.ofList (first :: tail))) tail.length := by
  rw [List.forall_mem_cons] at digits
  unfold Reading.of
  rw [if_neg (ne_dollar_of_digit digits.1), if_pos digits.1]
  unfold Reading.number
  rw [takeWhile_digits digits.2 apart]

theorem reading_reference {digit : Char} {digits cs rest : List Char}
    (index : ∀ c ∈ digit :: digits, isDigit c = true) (word : IsWord cs)
    (apart : ∀ c ∈ rest.head?, isBlank c = true) :
    Reading.of '$' (digit :: digits ++ '.' :: cs ++ rest) =
      .lexeme (.ident (String.ofList ('$' :: digit :: digits ++ '.' :: cs)))
        (digit :: digits ++ '.' :: cs).length := by
  cases cs with
  | nil => exact word.elim
  | cons letter tail =>
    obtain ⟨alphabetic, others⟩ := word
    have taken : ((digit :: digits) ++ '.' :: (letter :: tail ++ rest)).takeWhile isDigit = digit :: digits :=
      takeWhile_append index fun c head => by
        cases head
        decide
    have split : digit :: digits ++ '.' :: letter :: tail ++ rest =
        (digit :: digits) ++ '.' :: (letter :: tail ++ rest) := List.append_assoc _ _ _
    have behind : ((digit :: digits) ++ '.' :: (letter :: tail ++ rest)).drop (digit :: digits).length =
        '.' :: letter :: (tail ++ rest) := List.drop_left
    rw [split]
    unfold Reading.of Reading.reference
    rw [if_pos rfl]
    simp only [taken, behind, List.isEmpty_cons, Bool.false_eq_true, if_false, alphabetic, if_true,
      takeWhile_word others apart, Reading.lexeme.injEq, true_and]
    simp only [List.length_cons, List.length_append]
    omega

/-- A spelling is read as a token, before a blank or nothing, and begins with no blank. -/
def ReadAs (t : Token) (spelling : List Char) : Prop :=
  ∃ first tail, spelling = first :: tail ∧ isBlank first = false ∧
    ∀ rest : List Char, (∀ c ∈ rest.head?, isBlank c = true) →
      Reading.of first (tail ++ rest) = .lexeme t tail.length

theorem readAs_number {digits : String} {cs : List Char} (lexical : (Token.number digits).IsLexical)
    (spelled : (Token.number digits).SpelledBy cs) : ReadAs (.number digits) cs := by
  obtain @⟨first, tail, digits⟩ := lexical
  obtain rfl : cs = first :: tail := spelled.trans String.toList_ofList
  exact ⟨first, tail, rfl, not_blank_of_digit (digits first List.mem_cons_self),
    fun rest apart => reading_number digits apart⟩

theorem readAs_ident {name : String} {cs : List Char} (lexical : (Token.ident name).IsLexical)
    (spelled : (Token.ident name).SpelledBy cs) : ReadAs (.ident name) cs := by
  cases lexical with
  | @word letters word free =>
    obtain rfl : cs = letters := spelled.trans String.toList_ofList
    cases cs with
    | nil => exact word.elim
    | cons first tail =>
      refine ⟨first, tail, rfl, not_blank_of_wordChar (wordChar_of_alphabetic word.1), fun rest apart => ?_⟩
      rw [reading_word word apart, Token.ofWord, free]
  | @reference digit digits letters index word =>
    obtain rfl : cs = '$' :: digit :: digits ++ '.' :: letters := spelled.trans String.toList_ofList
    exact ⟨'$', _, rfl, by decide, fun rest apart => reading_reference index word apart⟩

theorem readAs_keyword {k : Keyword} {cs : List Char} (spelled : (Token.keyword k).SpelledBy cs) :
    ReadAs (.keyword k) cs := by
  have letters := letters_of_spelled spelled
  cases cs with
  | nil =>
    have empty : k.spelling.toList = [] := List.map_eq_nil_iff.mp (Eq.symm spelled)
    exact absurd empty (spelling_ne_nil k)
  | cons first tail =>
    rw [List.forall_mem_cons] at letters
    have word : IsWord (first :: tail) :=
      ⟨letters.1.2, fun c member => wordChar_of_alphabetic (letters.2 c member).2⟩
    refine ⟨first, tail, rfl, not_blank_of_wordChar (wordChar_of_alphabetic word.1), fun rest apart => ?_⟩
    rw [reading_word word apart, Token.ofWord, ofWord?_of_spelled spelled]

def symbols : List Char := ['<', '>', '=', '*', '/', '+', '-', '(', ')', ',', ';']

/-- No word, no number, no reference and no blank begins like a symbol. -/
theorem symbols_spec {c : Char} (symbol : c ∈ symbols) :
    c ≠ '$' ∧ isDigit c = false ∧ isAlphabetic c = false ∧ isBlank c = false := by
  have all : symbols.all (fun c => c != '$' && !isDigit c && !isAlphabetic c && !isBlank c) = true := by
    decide +kernel
  simpa [and_assoc] using List.all_eq_true.mp all c symbol

theorem readAs_symbol {t : Token} {first : Char} {tail : List Char} (symbol : first ∈ symbols)
    (reading : ∀ rest : List Char, (∀ c ∈ rest.head?, isBlank c = true) →
      Reading.symbol (first :: (tail ++ rest)) = .lexeme t tail.length) : ReadAs t (first :: tail) := by
  obtain ⟨dollar, digit, letter, blank⟩ := symbols_spec symbol
  refine ⟨first, tail, rfl, blank, fun rest apart => ?_⟩
  unfold Reading.of
  rw [if_neg dollar, digit, letter]
  exact reading rest apart

theorem readAs_lessThan : ReadAs .lessThan ['<'] := by
  refine readAs_symbol (by simp [symbols]) fun rest apart => ?_
  cases rest with
  | nil => rfl
  | cons c rest =>
    obtain ⟨_, _, equal, greater⟩ := blank_spec (apart c rfl)
    simp [Reading.symbol, equal, greater]

theorem readAs_greaterThan : ReadAs .greaterThan ['>'] := by
  refine readAs_symbol (by simp [symbols]) fun rest apart => ?_
  cases rest with
  | nil => rfl
  | cons c rest =>
    obtain ⟨_, _, equal, _⟩ := blank_spec (apart c rfl)
    simp [Reading.symbol, equal]

theorem readAs_of_spelled {t : Token} {cs : List Char} (lexical : t.IsLexical) (spelled : t.SpelledBy cs) :
    ReadAs t cs := by
  cases t with
  | number digits => exact readAs_number lexical spelled
  | ident name => exact readAs_ident lexical spelled
  | keyword k => exact readAs_keyword spelled
  | lessThan =>
    obtain rfl : cs = ['<'] := spelled
    exact readAs_lessThan
  | greaterThan =>
    obtain rfl : cs = ['>'] := spelled
    exact readAs_greaterThan
  | lessOrEqual =>
    obtain rfl : cs = ['<', '='] := spelled
    exact readAs_symbol (by simp [symbols]) fun _ _ => rfl
  | notEqual =>
    obtain rfl : cs = ['<', '>'] := spelled
    exact readAs_symbol (by simp [symbols]) fun _ _ => rfl
  | greaterOrEqual =>
    obtain rfl : cs = ['>', '='] := spelled
    exact readAs_symbol (by simp [symbols]) fun _ _ => rfl
  | equal =>
    obtain rfl : cs = ['='] := spelled
    exact readAs_symbol (by simp [symbols]) fun _ _ => rfl
  | asterisk =>
    obtain rfl : cs = ['*'] := spelled
    exact readAs_symbol (by simp [symbols]) fun _ _ => rfl
  | slash =>
    obtain rfl : cs = ['/'] := spelled
    exact readAs_symbol (by simp [symbols]) fun _ _ => rfl
  | plus =>
    obtain rfl : cs = ['+'] := spelled
    exact readAs_symbol (by simp [symbols]) fun _ _ => rfl
  | minus =>
    obtain rfl : cs = ['-'] := spelled
    exact readAs_symbol (by simp [symbols]) fun _ _ => rfl
  | openParen =>
    obtain rfl : cs = ['('] := spelled
    exact readAs_symbol (by simp [symbols]) fun _ _ => rfl
  | closeParen =>
    obtain rfl : cs = [')'] := spelled
    exact readAs_symbol (by simp [symbols]) fun _ _ => rfl
  | comma =>
    obtain rfl : cs = [','] := spelled
    exact readAs_symbol (by simp [symbols]) fun _ _ => rfl
  | semicolon =>
    obtain rfl : cs = [';'] := spelled
    exact readAs_symbol (by simp [symbols]) fun _ _ => rfl

/-! ## Reading all tokens -/

theorem skipBlanks_rest {c : Cursor} {blanks : List Char} {first : Char} {cs : List Char}
    (split : c.rest = blanks ++ first :: cs) (blank : ∀ d ∈ blanks, isBlank d = true)
    (begins : isBlank first = false) : c.skipBlanks.rest = first :: cs := by
  have taken : c.rest.takeWhile isBlank = blanks := by
    rw [split]
    exact takeWhile_append blank fun d head => by cases head; exact begins
  show c.rest.drop (c.rest.takeWhile isBlank).length = first :: cs
  rw [taken, split, List.drop_left]

theorem scan_rendered {c : Cursor} {t : Token} {blanks spelling rest : List Char}
    (split : c.rest = blanks ++ spelling ++ rest) (blank : ∀ d ∈ blanks, isBlank d = true)
    (read : ReadAs t spelling) (apart : ∀ d ∈ rest.head?, isBlank d = true) :
    ∃ position after, c.scan = (.lexeme ⟨position, t⟩, after) ∧ after.rest = rest := by
  obtain ⟨first, tail, rfl, begins, reading⟩ := read
  have here : c.skipBlanks.rest = first :: (tail ++ rest) :=
    skipBlanks_rest (split.trans (List.append_assoc _ _ _)) blank begins
  refine ⟨c.skipBlanks.position, c.skipBlanks.advance (tail.length + 1), ?_, ?_⟩
  · unfold Cursor.scan
    simp only [here, reading rest apart]
  · show c.skipBlanks.rest.drop (tail.length + 1) = rest
    rw [here, List.drop_succ_cons, List.drop_left]

theorem scan_blank {c : Cursor} (blank : ∀ d ∈ c.rest, isBlank d = true) :
    c.scan = (.finished, c.skipBlanks) := by
  have none : c.skipBlanks.rest = [] := by
    show c.rest.drop (c.rest.takeWhile isBlank).length = []
    have taken : (c.rest ++ []).takeWhile isBlank = c.rest := takeWhile_append blank (by simp)
    rw [List.append_nil] at taken
    rw [taken, List.drop_length]
  unfold Cursor.scan
  simp only [none]

theorem lexemes_finished {c after : Cursor} (scanned : c.scan = (.finished, after)) :
    c.lexemes = ([], .finished after.position) := by
  rw [Cursor.lexemes]
  split
  · rename_i found
    cases scanned.symm.trans found
    rfl
  · rename_i found
    cases scanned.symm.trans found
  · rename_i found
    cases scanned.symm.trans found

theorem lexemes_failed {c after : Cursor} {error : Error} (scanned : c.scan = (.failed error, after)) :
    c.lexemes = ([], .failed error after) := by
  rw [Cursor.lexemes]
  split
  · rename_i found
    cases scanned.symm.trans found
  · rename_i found
    cases scanned.symm.trans found
    rfl
  · rename_i found
    cases scanned.symm.trans found

theorem lexemes_lexeme {c after : Cursor} {l : Lexeme} (scanned : c.scan = (.lexeme l, after)) :
    c.lexemes = (l :: after.lexemes.1, after.lexemes.2) := by
  rw [Cursor.lexemes]
  split
  · rename_i found
    cases scanned.symm.trans found
  · rename_i found
    cases scanned.symm.trans found
  · rename_i found
    cases scanned.symm.trans found
    rfl

/-- The lexemes of a rendering are the tokens that are rendered. -/
theorem lexemes_of_renders {ts : List Token} {cs : List Char} (renders : Renders ts cs)
    (lexical : ∀ t ∈ ts, t.IsLexical) : ∀ c : Cursor, c.rest = cs →
      ∃ lexemes position, c.lexemes = (lexemes, .finished position) ∧ lexemes.map Lexeme.token = ts := by
  induction renders with
  | nothing blank =>
    rintro c rfl
    exact ⟨[], _, lexemes_finished (scan_blank blank), rfl⟩
  | @token t ts blanks spelling rest blank spelled apart later ih =>
    intro c split
    rw [List.forall_mem_cons] at lexical
    obtain ⟨position, after, scanned, behind⟩ :=
      scan_rendered split blank (readAs_of_spelled lexical.1 spelled) apart
    obtain ⟨lexemes, ending, all, tokens⟩ := ih lexical.2 after behind
    refine ⟨⟨position, t⟩ :: lexemes, ending, ?_, congrArg (t :: ·) tokens⟩
    rw [lexemes_lexeme scanned, all]

/-! ## Lexical tokens -/

theorem ofWord_lexical {first : Char} {tail : List Char} {t : Token} (letter : isAlphabetic first = true)
    (word : Token.ofWord (String.ofList (first :: tail.takeWhile isWordChar)) = t) : t.IsLexical := by
  unfold Token.ofWord at word
  split at word
  · rw [← word]
    trivial
  · rename_i free
    rw [← word]
    exact .word ⟨letter, fun c member => List.mem_takeWhile_imp member⟩ free

theorem reference_lexical {cs : List Char} {t : Token} {more : Nat}
    (read : Reading.reference cs = .lexeme t more) : t.IsLexical := by
  unfold Reading.reference at read
  simp only at read
  split at read
  · cases read
  rename_i present
  split at read
  · rename_i letter tail _
    split at read
    · rename_i alphabetic
      cases read
      have index : ∀ c ∈ cs.takeWhile isDigit, isDigit c = true := fun c member => List.mem_takeWhile_imp member
      cases digits : cs.takeWhile isDigit with
      | nil => simp [digits] at present
      | cons digit others =>
        rw [digits] at index
        exact .reference index ⟨alphabetic, fun c member => List.mem_takeWhile_imp member⟩
    · cases read
  · cases read
  · cases read

theorem symbol_lexical {cs : List Char} {t : Token} {more : Nat} (read : Reading.symbol cs = .lexeme t more) :
    t.IsLexical := by
  unfold Reading.symbol at read
  split at read <;> cases read <;> trivial

/-- What is read as a token is one that some text has. -/
theorem reading_lexical {first : Char} {cs : List Char} {t : Token} {more : Nat}
    (read : Reading.of first cs = .lexeme t more) : t.IsLexical := by
  unfold Reading.of at read
  split at read
  · exact reference_lexical read
  split at read
  · rename_i digit
    unfold Reading.number at read
    cases read
    refine .digits fun c member => ?_
    rcases List.mem_cons.mp member with rfl | later
    · exact digit
    · exact List.mem_takeWhile_imp later
  split at read
  · rename_i letter
    unfold Reading.word at read
    simp only [Reading.lexeme.injEq] at read
    exact ofWord_lexical letter read.1
  · exact symbol_lexical read

theorem scan_lexical {c after : Cursor} {l : Lexeme} (scanned : c.scan = (.lexeme l, after)) : l.token.IsLexical := by
  unfold Cursor.scan at scanned
  simp only at scanned
  split at scanned
  · cases scanned
  · split at scanned
    · rename_i read
      cases scanned
      exact reading_lexical read
    · cases scanned
    · cases scanned

/-- Every token of a text is lexical, up to its end or its first error. -/
theorem lexemes_lexical (c : Cursor) : ∀ l ∈ c.lexemes.1, l.token.IsLexical := by
  induction c using Cursor.lexemes.induct with
  | case1 c after scanned =>
    rw [lexemes_finished scanned]
    simp
  | case2 c error after scanned =>
    rw [lexemes_failed scanned]
    simp
  | case3 c l after scanned ih =>
    rw [lexemes_lexeme scanned]
    exact List.forall_mem_cons.mpr ⟨scan_lexical scanned, ih⟩

end StreamQuery
