import StreamQuery.Proofs.SurroundingBlanks

/-!
# Places of lexemes

Reading a text loses none of it. The lexemes lie one behind the other in the text, each where its
position says and spelled there as its token shows, and between them there are only blanks, up to
the end of the text or to the first error. The invariant of the cursor is that its position is the
one behind all that was read so far (`Position.behind`); what the cursor still finds is then a
layout of the text behind it (`Laid`).
-/

namespace StreamQuery

open Text

/-! ## Places in a text -/

/-- How many bytes some characters take in UTF-8. -/
def Text.byteSize (cs : List Char) : Nat := (String.ofList cs).utf8ByteSize

/-- The place behind some characters that begin a text: their size in bytes, one more than their
    line feeds, and one more than the characters behind the last line feed. -/
def Position.behind (before : List Char) : Position where
  offset := byteSize before
  line := 1 + before.count '\n'
  column := 1 + (before.reverse.takeWhile (· ≠ '\n')).length

/-- A place in a text, before the given rest of it. -/
def Position.At (p : Position) (text : String) (rest : List Char) : Prop :=
  ∃ before, text.toList = before ++ rest ∧ p = .behind before

theorem byteSize_append (cs ds : List Char) : byteSize (cs ++ ds) = byteSize cs + byteSize ds := by
  unfold byteSize
  rw [String.ofList_append, String.utf8ByteSize_append]

theorem byteSize_cons (c : Char) (cs : List Char) : byteSize (c :: cs) = c.utf8Size + byteSize cs := by
  unfold byteSize
  rw [String.ofList_cons, String.utf8ByteSize_append, String.utf8ByteSize_singleton]

theorem byteSize_pos {cs : List Char} (some : cs ≠ []) : 0 < byteSize cs := by
  cases cs with
  | nil => exact absurd rfl some
  | cons c cs =>
    have size := c.utf8Size_pos
    rw [byteSize_cons]
    omega

theorem byteSize_toList (text : String) : byteSize text.toList = text.utf8ByteSize := by
  unfold byteSize
  rw [String.ofList_toList]

/-- Where a text ends, as counted over the whole text, is the place behind all of it. -/
theorem finish_eq (text : String) : Position.finish text = .behind text.toList := by
  have line : text.toList.count '\n' + 1 = 1 + text.toList.count '\n' := Nat.add_comm _ _
  have column : (Position.lastLine text.toList).length + 1 =
      1 + (text.toList.reverse.takeWhile (· ≠ '\n')).length := by
    rw [Position.lastLine, List.length_reverse, Nat.add_comm]
  unfold Position.finish Position.behind
  rw [byteSize_toList, line, column]

theorem Position.At.boundary {p : Position} {text : String} {rest : List Char} (place : p.At text rest) :
    String.Pos.Raw.IsValid text ⟨p.offset⟩ := by
  obtain ⟨before, split, rfl⟩ := place
  refine String.Pos.Raw.isValid_iff_exists_append.mpr ⟨String.ofList before, String.ofList rest, ?_, rfl⟩
  rw [← String.ofList_append, ← split, String.ofList_toList]

theorem Position.At.offset {p : Position} {text : String} {rest : List Char} (place : p.At text rest) :
    p.offset + byteSize rest = text.utf8ByteSize := by
  obtain ⟨before, split, rfl⟩ := place
  rw [← byteSize_toList, split, byteSize_append]
  rfl

/-- One more character moves the place as the cursor does. -/
theorem behind_concat (before : List Char) (c : Char) :
    Position.behind (before ++ [c]) = (Position.behind before).next c := by
  have size : byteSize (before ++ [c]) = byteSize before + c.utf8Size := by
    rw [byteSize_append, byteSize_cons]
    rfl
  unfold Position.next Position.behind
  by_cases feed : c = '\n'
  · subst feed
    simp [size, Nat.add_assoc]
  · simp [size, feed, Nat.add_comm]

theorem behind_append (before cs : List Char) :
    Position.behind (before ++ cs) = (Position.behind before).after cs := by
  induction cs generalizing before with
  | nil => rw [List.append_nil]; rfl
  | cons c cs ih =>
    have split : before ++ c :: cs = before ++ [c] ++ cs := by simp
    rw [split, ih, behind_concat]
    rfl

/-! ## What a reading says -/

/-- What cannot follow a token, because the token would be longer. -/
def Token.EndsBefore : Token → List Char → Prop
  | .ident _, rest | .keyword _, rest => ∀ c ∈ rest.head?, isWordChar c = false
  | .number _, rest => ∀ c ∈ rest.head?, isDigit c = false
  | .lessThan, rest => ∀ c ∈ rest.head?, c ≠ '=' ∧ c ≠ '>'
  | .greaterThan, rest => ∀ c ∈ rest.head?, c ≠ '='
  | _, _ => True

/-- The start of a reference that breaks off before the rest of the text, and what was expected
    there. -/
inductive Unfinished : List Char → Expectation → List Char → Prop where
  | dollar {rest : List Char} (stop : ∀ c ∈ rest.head?, isDigit c = false) : Unfinished ['$'] .streamIndex rest
  | index {digits rest : List Char} (some : digits ≠ []) (all : ∀ c ∈ digits, isDigit c = true)
      (stop : ∀ c ∈ rest.head?, isDigit c = false ∧ c ≠ '.') : Unfinished ('$' :: digits) .dotAfterIndex rest
  | dot {digits rest : List Char} (some : digits ≠ []) (all : ∀ c ∈ digits, isDigit c = true)
      (stop : ∀ c ∈ rest.head?, isAlphabetic c = false) : Unfinished ('$' :: digits ++ ['.']) .columnName rest

/-- A character that no lexeme begins with, and that is no blank either. -/
structure BeginsNothing (c : Char) : Prop where
  blank : isBlank c = false
  dollar : c ≠ '$'
  digit : isDigit c = false
  letter : isAlphabetic c = false
  symbol : c ∉ symbols

theorem head_dropWhile {p : Char → Bool} {cs : List Char} : ∀ c ∈ (cs.dropWhile p).head?, p c = false := by
  intro c head
  have stop := List.head?_dropWhile_not p cs
  rw [Option.mem_def.mp head] at stop
  exact stop

/-- A run of characters, and what stops it. -/
theorem split_run (p : Char → Bool) (cs : List Char) :
    ∃ run rest, cs = run ++ rest ∧ (∀ c ∈ run, p c = true) ∧ ∀ c ∈ rest.head?, p c = false :=
  ⟨cs.takeWhile p, cs.dropWhile p, List.takeWhile_append_dropWhile.symm, fun _ => List.mem_takeWhile_imp,
    head_dropWhile⟩

theorem spelled_ofWord {cs : List Char} {t : Token} (word : Token.ofWord (String.ofList cs) = t) : t.SpelledBy cs := by
  unfold Token.ofWord at word
  cases found : Keyword.ofWord? (String.ofList cs) with
  | some k =>
    rw [found] at word
    subst word
    exact spelled_of_ofWord? found
  | none =>
    rw [found] at word
    subst word
    exact String.toList_ofList.symm

theorem ofWord_endsBefore {word : String} {rest : List Char} {t : Token} (token : Token.ofWord word = t)
    (stop : ∀ c ∈ rest.head?, isWordChar c = false) : t.EndsBefore rest := by
  unfold Token.ofWord at token
  cases found : Keyword.ofWord? word with
  | some k =>
    rw [found] at token
    subst token
    exact stop
  | none =>
    rw [found] at token
    subst token
    exact stop

theorem reference_no_index {cs : List Char} (stop : ∀ c ∈ cs.head?, isDigit c = false) :
    Reading.reference cs = .broken 1 .streamIndex := by
  have none : ([] ++ cs).takeWhile isDigit = [] := takeWhile_append (by simp) stop
  unfold Reading.reference
  rw [List.nil_append] at none
  simp [none]

section Index

variable {digits : List Char} (some : digits ≠ []) (all : ∀ c ∈ digits, isDigit c = true)

include some all

theorem reference_no_dot {rest : List Char} (stop : ∀ c ∈ rest.head?, isDigit c = false ∧ c ≠ '.') :
    Reading.reference (digits ++ rest) = .broken (digits.length + 1) .dotAfterIndex := by
  have taken : (digits ++ rest).takeWhile isDigit = digits := takeWhile_append all fun c head => (stop c head).1
  unfold Reading.reference
  simp only [taken, List.drop_left, List.isEmpty_iff, some, if_false]
  cases rest with
  | nil => rfl
  | cons d tail => simp [(stop d rfl).2]

theorem reference_no_word {rest : List Char} (stop : ∀ c ∈ rest.head?, isAlphabetic c = false) :
    Reading.reference (digits ++ '.' :: rest) = .broken (digits.length + 2) .columnName := by
  have taken : (digits ++ '.' :: rest).takeWhile isDigit = digits :=
    takeWhile_append all fun c head => by cases head; decide
  unfold Reading.reference
  simp only [taken, List.drop_left, List.isEmpty_iff, some, if_false]
  cases rest with
  | nil => rfl
  | cons d tail => simp [stop d rfl]

theorem reference_word {letter : Char} {tail rest : List Char} (alphabetic : isAlphabetic letter = true)
    (word : ∀ c ∈ tail, isWordChar c = true) (stop : ∀ c ∈ rest.head?, isWordChar c = false) :
    Reading.reference (digits ++ '.' :: letter :: (tail ++ rest)) =
      .lexeme (.ident (String.ofList ('$' :: (digits ++ '.' :: letter :: tail))))
        (digits ++ '.' :: letter :: tail).length := by
  have taken : (digits ++ '.' :: letter :: (tail ++ rest)).takeWhile isDigit = digits :=
    takeWhile_append all fun c head => by cases head; decide
  have name : (tail ++ rest).takeWhile isWordChar = tail := takeWhile_append word stop
  unfold Reading.reference
  simp only [taken, List.drop_left, List.isEmpty_iff, some, if_false, alphabetic, if_true, name,
    List.length_append, List.length_cons]
  congr 1
  omega

end Index

/-- A reference reads as an identifier that is spelled behind its dollar sign, or it is
    unfinished. -/
theorem reference_reads (cs : List Char) :
    (∃ name tail rest, cs = tail ++ rest ∧ Reading.reference cs = .lexeme (.ident name) tail.length ∧
      (Token.ident name).SpelledBy ('$' :: tail) ∧ (Token.ident name).EndsBefore rest) ∨
    ∃ start rest expected, '$' :: cs = start ++ rest ∧ Reading.reference cs = .broken start.length expected ∧
      Unfinished start expected rest := by
  obtain ⟨digits, behind, rfl, all, stop⟩ := split_run isDigit cs
  by_cases none : digits = []
  · subst none
    exact .inr ⟨['$'], behind, _, rfl, reference_no_index stop, .dollar stop⟩
  rcases behind with _ | ⟨d, tail⟩
  · exact .inr ⟨'$' :: digits, [], _, rfl, reference_no_dot none all (by simp), .index none all (by simp)⟩
  by_cases dot : d = '.'
  · subst dot
    rcases tail with _ | ⟨letter, word⟩
    · have noWord : ∀ c ∈ ([] : List Char).head?, isAlphabetic c = false := by simp
      refine .inr ⟨'$' :: digits ++ ['.'], [], _, by simp, ?_, .dot none all noWord⟩
      simpa using reference_no_word none all noWord
    cases alphabetic : isAlphabetic letter with
    | true =>
      obtain ⟨name, rest, rfl, inWord, wordStop⟩ := split_run isWordChar word
      refine .inl ⟨_, digits ++ '.' :: letter :: name, rest, by simp, ?_, String.toList_ofList.symm, wordStop⟩
      exact reference_word none all alphabetic inWord wordStop
    | false =>
      have noWord : ∀ c ∈ (letter :: word).head?, isAlphabetic c = false := fun c head => by
        cases head
        exact alphabetic
      refine .inr ⟨'$' :: digits ++ ['.'], letter :: word, _, by simp, ?_, .dot none all noWord⟩
      simpa using reference_no_word none all noWord
  · have noDot : ∀ c ∈ (d :: tail).head?, isDigit c = false ∧ c ≠ '.' := fun c head => by
      cases head
      exact ⟨stop d rfl, dot⟩
    exact .inr ⟨'$' :: digits, d :: tail, _, rfl, reference_no_dot none all noDot, .index none all noDot⟩

/-- A symbol is spelled by one character or by two, and a longer one would have been read. -/
theorem symbol_spelled {first : Char} {cs : List Char} {t : Token} {more : Nat}
    (read : Reading.symbol (first :: cs) = .lexeme t more) :
    ∃ tail rest, cs = tail ++ rest ∧ tail.length = more ∧ t.SpelledBy (first :: tail) ∧ t.EndsBefore rest := by
  unfold Reading.symbol at read
  split at read
  case h_4 rest noEqual noGreater same =>
    cases same
    cases read
    refine ⟨[], cs, rfl, rfl, rfl, fun c head => ?_⟩
    obtain ⟨tail, rfl⟩ := List.head?_eq_some_iff.mp head
    constructor
    · rintro rfl
      exact noEqual tail rfl
    · rintro rfl
      exact noGreater tail rfl
  case h_5 rest noEqual same =>
    cases same
    cases read
    refine ⟨[], cs, rfl, rfl, rfl, fun c head => ?_⟩
    obtain ⟨tail, rfl⟩ := List.head?_eq_some_iff.mp head
    rintro rfl
    exact noEqual tail rfl
  case h_15 => cases read
  all_goals
    rename_i same
    cases same
    cases read
    first
    | exact ⟨[], _, rfl, rfl, rfl, trivial⟩
    | exact ⟨[_], _, rfl, rfl, rfl, trivial⟩

/-- What is read as a token spells it, as far as the token goes. -/
theorem reading_spelled {first : Char} {cs : List Char} {t : Token} {more : Nat}
    (read : Reading.of first cs = .lexeme t more) :
    ∃ tail rest, cs = tail ++ rest ∧ tail.length = more ∧ t.SpelledBy (first :: tail) ∧ t.EndsBefore rest := by
  unfold Reading.of at read
  split_ifs at read with dollar digit letter
  · subst dollar
    rcases reference_reads cs with ⟨name, tail, rest, split, same, spelled, ends⟩ | ⟨_, _, _, _, same, _⟩
    · cases same.symm.trans read
      exact ⟨tail, rest, split, rfl, spelled, ends⟩
    · cases same.symm.trans read
  · obtain ⟨digits, rest, rfl, all, stop⟩ := split_run isDigit cs
    unfold Reading.number at read
    rw [takeWhile_append all stop] at read
    cases read
    exact ⟨digits, rest, rfl, rfl, String.toList_ofList.symm, stop⟩
  · obtain ⟨word, rest, rfl, all, stop⟩ := split_run isWordChar cs
    unfold Reading.word at read
    rw [takeWhile_append all stop] at read
    simp only [Reading.lexeme.injEq] at read
    obtain ⟨token, length⟩ := read
    exact ⟨word, rest, rfl, length, spelled_ofWord token, ofWord_endsBefore token stop⟩
  · exact symbol_spelled read

theorem symbol_not_broken (cs : List Char) (n : Nat) (expected : Expectation) :
    Reading.symbol cs ≠ .broken n expected := by
  unfold Reading.symbol
  intro same
  split at same <;> cases same

theorem symbol_not_foreign {first : Char} (symbol : first ∈ symbols) (cs : List Char) :
    Reading.symbol (first :: cs) ≠ .foreign := by
  unfold Reading.symbol
  intro same
  split at same
  case h_15 => simp_all [symbols]
  all_goals cases same

theorem reading_broken {first : Char} {cs : List Char} {n : Nat} {expected : Expectation}
    (read : Reading.of first cs = .broken n expected) :
    ∃ start rest, first :: cs = start ++ rest ∧ start.length = n ∧ Unfinished start expected rest := by
  unfold Reading.of at read
  split_ifs at read with dollar digit letter
  · subst dollar
    rcases reference_reads cs with ⟨_, _, _, _, same, _⟩ | ⟨start, rest, _, split, same, unfinished⟩
    · cases same.symm.trans read
    · cases same.symm.trans read
      exact ⟨start, rest, split, rfl, unfinished⟩
  · cases read
  · cases read
  · exact absurd read (symbol_not_broken _ _ _)

theorem reading_foreign {first : Char} {cs : List Char} (blank : isBlank first = false)
    (read : Reading.of first cs = .foreign) : BeginsNothing first := by
  unfold Reading.of at read
  split_ifs at read with dollar digit letter
  · rcases reference_reads cs with ⟨_, _, _, _, same, _⟩ | ⟨_, _, _, _, same, _⟩
    · cases same.symm.trans read
    · cases same.symm.trans read
  · cases read
  · cases read
  · exact ⟨blank, dollar, by simpa using digit, by simpa using letter, fun symbol => symbol_not_foreign symbol cs read⟩

/-! ## Layouts -/

/-- How lexing stops behind some text: at the end, before a character that begins nothing, or
    behind the start of a reference, which is the only text that it reads without a lexeme. A
    reference breaks off at the end of the text or before a character, and the error reports which. -/
inductive Stop (before : List Char) : List Char → List Char → Ending → Prop where
  | finished : Stop before [] [] (.finished (.behind before))
  | foreign {c : Char} {tail : List Char} (foreign : BeginsNothing c) :
      Stop before [] (c :: tail) (.failed (.foreignCharacter (.behind before) c) ⟨c :: tail, .behind before⟩)
  | brokenAtEnd {start : List Char} {expected : Expectation} (unfinished : Unfinished start expected []) :
      Stop before start [] (.failed (.unexpected (.behind (before ++ start)) expected none)
        ⟨[], .behind (before ++ start)⟩)
  | brokenBefore {start : List Char} {c : Char} {tail : List Char} {expected : Expectation}
      (unfinished : Unfinished start expected (c :: tail)) :
      Stop before start (c :: tail) (.failed (.foreignCharacter (.behind (before ++ start)) c)
        ⟨c :: tail, .behind (before ++ start)⟩)

/-- A cursor behind the start of a reference fails as the text goes on there. -/
theorem stop_unfinished (before : List Char) {start rest : List Char} {expected : Expectation}
    (unfinished : Unfinished start expected rest) :
    Stop before start rest (.failed (Cursor.failure ⟨rest, .behind (before ++ start)⟩ expected)
      ⟨rest, .behind (before ++ start)⟩) := by
  cases rest with
  | nil => exact .brokenAtEnd unfinished
  | cons c tail => exact .brokenBefore unfinished

/-- The layout of a text behind some other: blanks and lexemes, each where its position says and
    spelled as its token shows, and then blanks up to where lexing stops. -/
inductive Laid : List Char → List Char → List Lexeme → Ending → Prop where
  | stop {before blanks start rest : List Char} {ending : Ending} (blank : ∀ c ∈ blanks, isBlank c = true)
      (stop : Stop (before ++ blanks) start rest ending) : Laid before (blanks ++ start ++ rest) [] ending
  | lexeme {before blanks slice rest : List Char} {t : Token} {lexemes : List Lexeme} {ending : Ending}
      (blank : ∀ c ∈ blanks, isBlank c = true) (some : slice ≠ []) (spelled : t.SpelledBy slice)
      (ends : t.EndsBefore rest) (later : Laid (before ++ blanks ++ slice) rest lexemes ending) :
      Laid before (blanks ++ slice ++ rest) (⟨.behind (before ++ blanks), t⟩ :: lexemes) ending

section Cursors

variable {c : Cursor} {before : List Char}

theorem advance_eq {start rest : List Char} (place : c.position = .behind before) (split : c.rest = start ++ rest) :
    c.advance start.length = ⟨rest, .behind (before ++ start)⟩ := by
  unfold Cursor.advance
  rw [split, place, behind_append, List.drop_left, List.take_left]

theorem skipBlanks_behind (before : List Char) {blanks : List Char} (blank : ∀ d ∈ blanks, isBlank d = true)
    (cs : List Char) (begins : ∀ d ∈ cs.head?, isBlank d = false) :
    Cursor.skipBlanks ⟨blanks ++ cs, .behind before⟩ = ⟨cs, .behind (before ++ blanks)⟩ := by
  unfold Cursor.skipBlanks
  rw [takeWhile_append blank begins]
  exact advance_eq rfl rfl

theorem skipBlanks_eq (place : c.position = .behind before) :
    ∃ blanks rest, c.rest = blanks ++ rest ∧ (∀ d ∈ blanks, isBlank d = true) ∧
      (∀ d ∈ rest.head?, isBlank d = false) ∧ c.skipBlanks = ⟨rest, .behind (before ++ blanks)⟩ := by
  obtain ⟨blanks, rest, split, all, stop⟩ := split_run isBlank c.rest
  refine ⟨blanks, rest, split, all, stop, ?_⟩
  have taken : c.rest.takeWhile isBlank = blanks := by
    rw [split]
    exact takeWhile_append all stop
  unfold Cursor.skipBlanks
  rw [taken]
  exact advance_eq place split

/-- What one scan reads of the text behind the cursor: blanks, and then a lexeme, or nothing more
    that it could go on from. -/
theorem scan_reads (place : c.position = .behind before) :
    ∃ blanks, (∀ d ∈ blanks, isBlank d = true) ∧
      ((∃ start rest ending, c.rest = blanks ++ start ++ rest ∧ Stop (before ++ blanks) start rest ending ∧
          c.lexemes = ([], ending)) ∨
        ∃ t slice rest, c.rest = blanks ++ slice ++ rest ∧ slice ≠ [] ∧ t.SpelledBy slice ∧ t.EndsBefore rest ∧
          c.scan = (.lexeme ⟨.behind (before ++ blanks), t⟩, ⟨rest, .behind (before ++ blanks ++ slice)⟩)) := by
  obtain ⟨blanks, behind, split, all, begins, skipped⟩ := skipBlanks_eq place
  refine ⟨blanks, all, ?_⟩
  rcases behind with _ | ⟨first, cs⟩
  · have scanned : c.scan = (.finished, ⟨[], .behind (before ++ blanks)⟩) := by
      unfold Cursor.scan
      rw [skipped]
    exact .inl ⟨[], [], _, by simp [split], .finished, lexemes_finished scanned⟩
  have moves : ∀ start rest, first :: cs = start ++ rest →
      (Cursor.mk (first :: cs) (.behind (before ++ blanks))).advance start.length =
        ⟨rest, .behind (before ++ blanks ++ start)⟩ := fun start rest whole => advance_eq rfl whole
  cases read : Reading.of first cs with
  | lexeme t more =>
    obtain ⟨tail, rest, rfl, rfl, spelled, ends⟩ := reading_spelled read
    refine .inr ⟨t, first :: tail, rest, by simp [split], List.cons_ne_nil _ _, spelled, ends, ?_⟩
    unfold Cursor.scan
    simp only [skipped, read]
    rw [← moves (first :: tail) rest rfl]
    rfl
  | broken n expected =>
    obtain ⟨start, rest, whole, rfl, unfinished⟩ := reading_broken read
    refine .inl ⟨start, rest, _, by rw [split, List.append_assoc, whole], stop_unfinished _ unfinished,
      lexemes_failed ?_⟩
    unfold Cursor.scan
    simp only [skipped, read, moves start rest whole]
  | foreign =>
    have nothing := reading_foreign (begins first rfl) read
    refine .inl ⟨[], first :: cs, _, by simp [split], .foreign nothing, lexemes_failed ?_⟩
    unfold Cursor.scan
    simp only [skipped, read]

end Cursors

theorem start_eq {text : String} {cs : List Char} (split : text.toList = cs) : Cursor.start text = ⟨cs, .behind []⟩ :=
  congrArg (Cursor.mk · .start) split

theorem laid_lexemes (c : Cursor) (before : List Char) (place : c.position = .behind before) :
    Laid before c.rest c.lexemes.1 c.lexemes.2 := by
  obtain ⟨blanks, blank, stopped | read⟩ := scan_reads place
  · obtain ⟨start, rest, ending, split, stop, all⟩ := stopped
    rw [split, all]
    exact .stop blank stop
  · obtain ⟨t, slice, rest, split, some, spelled, ends, scanned⟩ := read
    have later := laid_lexemes ⟨rest, .behind (before ++ blanks ++ slice)⟩ _ rfl
    rw [split, lexemes_lexeme scanned]
    exact .lexeme blank some spelled ends later
termination_by c.rest.length
decreasing_by exact Cursor.length_scan_lt scanned

/-- The lexemes of a text are a layout of all of it. -/
theorem laid_text (text : String) : Laid [] text.toList (Cursor.start text).lexemes.1 (Cursor.start text).lexemes.2 :=
  laid_lexemes (.start text) [] rfl

/-! ## Lexemes of a layout -/

/-- The offset behind a lexeme. -/
def Lexeme.stop (l : Lexeme) : Nat := l.position.offset + l.token.display.utf8ByteSize

theorem size_of_ascii {cs : List Char} (ascii : ∀ c ∈ cs, c.toNat < 128) : byteSize cs = cs.length := by
  induction cs with
  | nil => rfl
  | cons c cs ih =>
    rw [List.forall_mem_cons] at ascii
    have one : c.utf8Size = 1 := by
      refine Char.utf8Size_eq_one_iff.mpr ?_
      have small : c.toNat ≤ 127 := Nat.le_of_lt_succ ascii.1
      exact small
    rw [byteSize_cons, ih ascii.2, one, List.length_cons, Nat.add_comm]

/-- A spelling of a token is as long as the token shows. -/
theorem size_of_spelled {t : Token} {cs : List Char} (spelled : t.SpelledBy cs) :
    byteSize cs = t.display.utf8ByteSize := by
  rw [← byteSize_toList]
  cases t with
  | keyword k =>
    have letters : ∀ ds, (Token.keyword k).SpelledBy ds → byteSize ds = ds.length := fun ds h =>
      size_of_ascii fun c member => (letters_of_spelled h c member).1
    have length := congrArg List.length (show cs.map Char.toLower = k.spelling.toList.map Char.toLower from spelled)
    rw [List.length_map, List.length_map] at length
    rw [letters cs spelled, length]
    exact (letters k.spelling.toList rfl).symm
  | number | ident | asterisk | slash | plus | minus | equal | notEqual | lessThan | lessOrEqual | greaterThan
  | greaterOrEqual | openParen | closeParen | comma | semicolon => exact congrArg byteSize spelled

section Layouts

variable {before rest : List Char} {lexemes : List Lexeme} {ending : Ending}

/-- Every lexeme stands in the text where it says, and is spelled there as its token shows. -/
theorem Laid.placed (laid : Laid before rest lexemes ending) {text : String} (split : text.toList = before ++ rest) :
    ∀ l ∈ lexemes, ∃ slice tail, l.position.At text (slice ++ tail) ∧ slice ≠ [] ∧ l.token.SpelledBy slice ∧
      l.token.EndsBefore tail := by
  induction laid with
  | stop => simp
  | @lexeme before blanks slice rest t lexemes ending blank some spelled ends later ih =>
    rw [List.forall_mem_cons]
    refine ⟨⟨slice, rest, ⟨before ++ blanks, ?_, rfl⟩, some, spelled, ends⟩, ih ?_⟩
    · rw [split]
      simp
    · rw [split]
      simp

theorem Laid.behind (laid : Laid before rest lexemes ending) : ∀ l ∈ lexemes, byteSize before ≤ l.position.offset := by
  induction laid with
  | stop => simp
  | @lexeme before blanks slice rest t lexemes ending blank some spelled ends later ih =>
    rw [List.forall_mem_cons]
    refine ⟨?_, fun l member => ?_⟩
    · show byteSize before ≤ byteSize (before ++ blanks)
      rw [byteSize_append]
      omega
    · have further := ih l member
      rw [byteSize_append, byteSize_append] at further
      omega

theorem Laid.ordered (laid : Laid before rest lexemes ending) :
    lexemes.Pairwise fun l m => l.stop ≤ m.position.offset := by
  induction laid with
  | stop => exact .nil
  | @lexeme before blanks slice rest t lexemes ending blank some spelled ends later ih =>
    refine .cons (fun m member => ?_) ih
    have further := later.behind m member
    rw [byteSize_append, size_of_spelled spelled] at further
    exact further

/-- Where one character stands among two texts, one behind the other. -/
theorem split_between {xs ys front back : List Char} {c : Char} (split : xs ++ ys = front ++ c :: back) :
    (∃ tail, xs = front ++ c :: tail) ∨ ∃ more, front = xs ++ more ∧ ys = more ++ c :: back := by
  rcases List.append_eq_append_iff.mp split with ⟨more, same, behind⟩ | ⟨more, same, behind⟩
  · exact .inr ⟨more, same, behind⟩
  · cases more with
    | nil => exact .inr ⟨[], by simpa using same.symm, by simpa using behind.symm⟩
    | cons d tail =>
      cases behind
      exact .inl ⟨tail, same⟩

/-- What lies between the beginning of a layout and its stop: the lexemes, and blanks at every place
    outside them. -/
theorem Laid.stops (laid : Laid before rest lexemes ending) :
    ∃ between start tail, rest = between ++ start ++ tail ∧ Stop (before ++ between) start tail ending ∧
      (∀ l ∈ lexemes, l.stop ≤ byteSize (before ++ between)) ∧
      ∀ front c back, between = front ++ c :: back → isBlank c = true ∨
        ∃ l ∈ lexemes, l.position.offset ≤ byteSize (before ++ front) ∧ byteSize (before ++ front) < l.stop := by
  induction laid with
  | @stop before blanks start rest ending blank stop =>
    refine ⟨blanks, start, rest, rfl, stop, by simp, fun front c back split => .inl (blank c ?_)⟩
    rw [split]
    simp
  | @lexeme before blanks slice rest t lexemes ending blank some spelled ends later ih =>
    obtain ⟨between, start, tail, rfl, stop, inside, covered⟩ := ih
    have whole : before ++ (blanks ++ slice ++ between) = before ++ blanks ++ slice ++ between := by simp
    have stopHere : Lexeme.stop ⟨.behind (before ++ blanks), t⟩ = byteSize (before ++ blanks ++ slice) := by
      rw [byteSize_append _ slice, size_of_spelled spelled]
      rfl
    refine ⟨blanks ++ slice ++ between, start, tail, by simp, whole ▸ stop, ?_, fun front c back split => ?_⟩
    · rw [whole, List.forall_mem_cons]
      refine ⟨?_, inside⟩
      rw [stopHere, byteSize_append _ between]
      omega
    rcases split_between split with ⟨more, inFirst⟩ | ⟨front, rfl, inRest⟩
    · rcases split_between inFirst with ⟨more, inBlanks⟩ | ⟨front, rfl, inSlice⟩
      · exact .inl (blank c (by simp [inBlanks]))
      · -- The character is inside the first lexeme, which is as long as its slice.
        have size := c.utf8Size_pos
        refine .inr ⟨_, List.mem_cons_self, ?_, ?_⟩
        · show byteSize (before ++ blanks) ≤ byteSize (before ++ (blanks ++ front))
          rw [← List.append_assoc, byteSize_append _ front]
          omega
        · rw [stopHere, inSlice, ← List.append_assoc, byteSize_append _ front, byteSize_append _ (front ++ c :: more),
            byteSize_append front, byteSize_cons]
          omega
    · have same : before ++ (blanks ++ slice ++ front) = before ++ blanks ++ slice ++ front := by simp
      rw [same]
      rcases covered front c back inRest with blankHere | ⟨l, member, bounds⟩
      · exact .inl blankHere
      · exact .inr ⟨l, List.mem_cons_of_mem _ member, bounds⟩

end Layouts

/-! ## Texts -/

/-- Lexemes that are all of a text up to where lexing stops: each stands where its position says,
    spelled as its token shows and as long as it can be; each begins behind those before it; and
    before the stop there are only blanks outside them, except for the start of a reference that
    breaks off there. -/
structure Lexed (text : String) (lexemes : List Lexeme) (ending : Ending) : Prop where
  placed : ∀ l ∈ lexemes, ∃ slice tail, l.position.At text (slice ++ tail) ∧ slice ≠ [] ∧
    l.token.SpelledBy slice ∧ l.token.EndsBefore tail
  ordered : lexemes.Pairwise fun l m => l.stop ≤ m.position.offset
  stops : ∃ before start rest, text.toList = before ++ start ++ rest ∧ Stop before start rest ending ∧
    (∀ l ∈ lexemes, l.stop ≤ byteSize before) ∧
    ∀ front c back, before = front ++ c :: back → isBlank c = true ∨
      ∃ l ∈ lexemes, l.position.offset ≤ byteSize front ∧ byteSize front < l.stop

/-- Lexing loses nothing of a text, and its positions are exact. -/
theorem lexemes_of_text (text : String) :
    Lexed text (Cursor.start text).lexemes.1 (Cursor.start text).lexemes.2 where
  placed := (laid_text text).placed rfl
  ordered := (laid_text text).ordered
  stops := (laid_text text).stops

end StreamQuery
