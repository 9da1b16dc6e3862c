import StreamQuery.Proofs.LexemePlaces

/-!
# Where a statement ends

A statement ends at its semicolon, whatever follows. Nothing behind a semicolon changes how the text
up to it is read: each lexeme before is stopped by a character of that text, and no symbol begins with
a semicolon and goes on. Nor does the parser look behind it. So behind a statement there is left what
its semicolon is followed by, lexed as a text of its own, only further on (`moved`). A longer text is
the same statement exactly if only blanks follow, and otherwise it fails at the first of what is left.
-/

namespace StreamQuery

open Text

/-! ## Places further on -/

/-- The place that a place of a text has where that text begins at another place of a longer one. Only
    in its first line are the columns others. -/
def Position.moved (p base : Position) : Position where
  offset := base.offset + p.offset
  line := base.line + (p.line - 1)
  column := if p.line = 1 then base.column + (p.column - 1) else p.column

def Lexeme.moved (l : Lexeme) (base : Position) : Lexeme := { l with position := l.position.moved base }

def Cursor.moved (c : Cursor) (base : Position) : Cursor := { c with position := c.position.moved base }

/-- An error of a text as one of a longer text. Errors without a place stay as they are. -/
def Error.moved (e : Error) (base : Position) : Error :=
  match e with
  | .foreignCharacter p found => .foreignCharacter (p.moved base) found
  | .unexpected p expected found => .unexpected (p.moved base) expected found
  | .unknownFunction p name => .unknownFunction (p.moved base) name
  | other => other

def Ending.moved (ending : Ending) (base : Position) : Ending :=
  match ending with
  | .finished p => .finished (p.moved base)
  | .failed e after => .failed (e.moved base) (after.moved base)

def Scanned.moved (found : Scanned) (base : Position) : Scanned :=
  match found with
  | .finished => .finished
  | .lexeme l => .lexeme (l.moved base)
  | .failed e => .failed (e.moved base)

/-- A place whose line and column are counted from one. -/
structure Position.Counted (p : Position) : Prop where
  line : 1 ≤ p.line
  column : 1 ≤ p.column

section Moved

variable {c : Cursor} {base : Position}

theorem Position.Counted.next {p : Position} (counted : p.Counted) (d : Char) : (p.next d).Counted := by
  unfold Position.next
  split
  · exact ⟨Nat.le_add_left _ _, Nat.le_refl _⟩
  · exact ⟨counted.line, Nat.le_add_left _ _⟩

theorem moved_next {p : Position} (counted : p.Counted) (d : Char) : (p.next d).moved base = (p.moved base).next d := by
  obtain ⟨line, column⟩ := counted
  unfold Position.next Position.moved
  by_cases feed : d = '\n'
  · have later : p.line + 1 ≠ 1 := by omega
    simp only [feed, if_true, if_neg later, Position.mk.injEq, and_true]
    omega
  · simp only [feed, if_false, Position.mk.injEq, true_and]
    refine ⟨(Nat.add_assoc _ _ _).symm, ?_⟩
    split <;> omega

theorem Position.Counted.after {p : Position} (counted : p.Counted) (ds : List Char) : (p.after ds).Counted := by
  induction ds generalizing p with
  | nil => exact counted
  | cons d ds ih => exact ih (counted.next d)

theorem moved_after {p : Position} (counted : p.Counted) (ds : List Char) :
    (p.after ds).moved base = (p.moved base).after ds := by
  induction ds generalizing p with
  | nil => rfl
  | cons d ds ih =>
    have later := ih (counted.next d)
    rw [moved_next counted] at later
    exact later

theorem moved_advance (counted : c.position.Counted) (n : Nat) : (c.advance n).moved base = (c.moved base).advance n :=
  congrArg (Cursor.mk (c.rest.drop n)) (moved_after counted (c.rest.take n))

theorem moved_failure (expected : Expectation) : (c.failure expected).moved base = (c.moved base).failure expected := by
  unfold Cursor.failure Cursor.moved
  cases c.rest with
  | nil => rfl
  | cons found rest => rfl

/-- A scan of a cursor that stands further on finds the same further on, and leaves a place that is
    counted as well. -/
theorem moved_scan (base : Position) (counted : c.position.Counted) :
    (c.moved base).scan = (c.scan.1.moved base, c.scan.2.moved base) ∧ c.scan.2.position.Counted := by
  have skipped : (c.moved base).skipBlanks = c.skipBlanks.moved base := (moved_advance counted _).symm
  have here : c.skipBlanks.position.Counted := counted.after _
  have rest : (c.skipBlanks.moved base).rest = c.skipBlanks.rest := rfl
  unfold Cursor.scan
  simp only [skipped, rest]
  split
  · exact ⟨rfl, here⟩
  · split
    · exact ⟨Prod.ext rfl (moved_advance here _).symm, here.after _⟩
    · simp only [← moved_advance here, ← moved_failure]
      exact ⟨rfl, here.after _⟩
    · exact ⟨rfl, here⟩

/-- The lexemes before a cursor that stands further on are the same, further on. -/
theorem moved_lexemes (c : Cursor) (counted : c.position.Counted) :
    (c.moved base).lexemes = (c.lexemes.1.map (·.moved base), c.lexemes.2.moved base) := by
  obtain ⟨moves, reached⟩ := moved_scan base counted
  cases scanned : c.scan with
  | mk found after =>
    rw [scanned] at moves reached
    cases found with
    | finished =>
      rw [lexemes_finished moves, lexemes_finished scanned]
      rfl
    | failed e =>
      rw [lexemes_failed moves, lexemes_failed scanned]
      rfl
    | lexeme l =>
      have later := moved_lexemes after reached
      rw [lexemes_lexeme moves, lexemes_lexeme scanned, later]
      rfl
termination_by c.rest.length
decreasing_by exact Cursor.length_scan_lt scanned

end Moved

/-! ## Lexing before more text -/

section Before

variable {before cs : List Char} (more : List Char)

/-- A run that stops inside a text stops there in a longer text too. -/
theorem takeWhile_inside {p : Char → Bool} (inside : (cs.takeWhile p).length < cs.length) :
    (cs ++ more).takeWhile p = cs.takeWhile p := by
  rw [List.takeWhile_append, if_neg (Nat.ne_of_lt inside)]

theorem reference_inside {t : Token} {n : Nat} (read : Reading.reference cs = .lexeme t n) (inside : n < cs.length) :
    Reading.reference (cs ++ more) = .lexeme t n := by
  unfold Reading.reference at read
  simp only at read
  split_ifs at read with none
  split at read
  · rename_i c tail behind
    split_ifs at read with letter
    cases read
    have whole := congrArg List.length behind
    simp only [List.length_drop, List.length_cons] at whole inside
    have digits : (cs ++ more).takeWhile isDigit = cs.takeWhile isDigit := takeWhile_inside more (by omega)
    have name : (tail ++ more).takeWhile isWordChar = tail.takeWhile isWordChar := takeWhile_inside more (by omega)
    have rest : (cs ++ more).drop (cs.takeWhile isDigit).length = '.' :: c :: (tail ++ more) := by
      rw [List.drop_append_of_le_length (by omega), behind]
      rfl
    unfold Reading.reference
    simp only [digits, rest, name, if_neg none, if_pos letter]
  · cases read
  · cases read

/-- A semicolon is read as one whatever follows it. -/
theorem reading_semicolon (cs : List Char) : Reading.of ';' cs = .lexeme .semicolon 0 := by
  obtain ⟨dollar, digit, letter, _⟩ := symbols_spec (c := ';') (by simp [symbols])
  unfold Reading.of
  rw [if_neg dollar, digit, letter]
  rfl

/-- A lexeme that ends inside a text, or that is a semicolon, is the same before more text. -/
theorem reading_inside {first : Char} {t : Token} {n : Nat} (read : Reading.of first cs = .lexeme t n)
    (ends : n < cs.length ∨ t = .semicolon) : Reading.of first (cs ++ more) = .lexeme t n := by
  rcases ends with inside | rfl
  · unfold Reading.of at read ⊢
    split_ifs at read ⊢
    · exact reference_inside more read inside
    · unfold Reading.number at read ⊢
      cases read
      rw [takeWhile_inside more inside]
    · unfold Reading.word at read ⊢
      simp only [Reading.lexeme.injEq] at read
      obtain ⟨rfl, rfl⟩ := read
      rw [takeWhile_inside more inside]
    · cases cs with
      | nil => cases inside
      | cons c cs =>
        rw [← read]
        exact (symbol_two first c _).trans (symbol_two first c cs).symm
  · obtain ⟨tail, rest, rfl, rfl, spelled, _⟩ := reading_spelled read
    obtain ⟨rfl, rfl⟩ := List.cons.inj (show first :: tail = [';'] from spelled)
    exact reading_semicolon _

theorem scan_inside {l : Lexeme} {after : Cursor} (scanned : Cursor.scan ⟨cs, .behind before⟩ = (.lexeme l, after))
    (ends : after.rest ≠ [] ∨ l.token = .semicolon) :
    Cursor.scan ⟨cs ++ more, .behind before⟩ = (.lexeme l, ⟨after.rest ++ more, after.position⟩) := by
  rcases blank_or_begins cs with blank | ⟨blanks, first, tail, rfl, blank, begins⟩
  · cases (scan_blank blank).symm.trans scanned
  have here := skipBlanks_behind before blank (first :: tail) (by simpa using begins)
  have there := skipBlanks_behind before blank (first :: (tail ++ more)) (by simpa using begins)
  unfold Cursor.scan at scanned
  simp only [here] at scanned
  cases read : Reading.of first tail with
  | broken n expected => simp [read] at scanned
  | foreign => simp [read] at scanned
  | lexeme t n =>
    obtain ⟨word, rest, rfl, rfl, _, _⟩ := reading_spelled read
    have moves : ∀ rest, Cursor.advance ⟨first :: (word ++ rest), .behind (before ++ blanks)⟩ (word.length + 1) =
        ⟨rest, .behind (before ++ blanks ++ first :: word)⟩ := fun rest => by
      rw [← List.length_cons (a := first)]
      exact advance_eq rfl rfl
    simp only [read, moves, Prod.mk.injEq, Scanned.lexeme.injEq] at scanned
    obtain ⟨rfl, rfl⟩ := scanned
    have sameRead : Reading.of first (word ++ rest ++ more) = .lexeme t word.length := by
      refine reading_inside more read (ends.imp_left fun some => ?_)
      rw [List.length_append]
      exact Nat.lt_add_of_pos_right (List.length_pos_iff.mpr some)
    unfold Cursor.scan
    rw [List.append_assoc] at sameRead
    have split : blanks ++ first :: (word ++ rest) ++ more = blanks ++ first :: (word ++ (rest ++ more)) := by simp
    rw [List.append_assoc] at there
    simp only [split, there, sameRead, moves]

theorem lexemes_congr {c d : Cursor} (same : c.scan = d.scan) : c.lexemes = d.lexemes := by
  cases scanned : d.scan with
  | mk found after =>
    rw [scanned] at same
    cases found with
    | finished => rw [lexemes_finished same, lexemes_finished scanned]
    | failed e => rw [lexemes_failed same, lexemes_failed scanned]
    | lexeme l => rw [lexemes_lexeme same, lexemes_lexeme scanned]

/-- Blanks in front only move the place. -/
theorem lexemes_behind_blanks {blanks : List Char} (blank : ∀ c ∈ blanks, isBlank c = true) :
    Cursor.lexemes ⟨blanks ++ more, .behind before⟩ = Cursor.lexemes ⟨more, .behind (before ++ blanks)⟩ := by
  obtain ⟨others, rest, rfl, blankOthers, begins⟩ := split_run isBlank more
  have here := skipBlanks_behind before (List.forall_mem_append.mpr ⟨blank, blankOthers⟩) rest begins
  have there := skipBlanks_behind (before ++ blanks) blankOthers rest begins
  refine lexemes_congr ?_
  unfold Cursor.scan
  rw [← List.append_assoc blanks, here, there, List.append_assoc before]

theorem lexemes_none_iff :
    (∃ p, Cursor.lexemes ⟨cs, .behind before⟩ = ([], .finished p)) ↔ ∀ c ∈ cs, isBlank c = true := by
  constructor
  · rintro ⟨p, none⟩
    obtain ⟨blanks, blank, ⟨start, rest, ending, split, stop, all⟩ | ⟨t, slice, rest, _, _, _, _, scanned⟩⟩ :=
      scan_reads (c := ⟨cs, .behind before⟩) rfl
    · cases none.symm.trans all
      cases stop
      obtain rfl : cs = blanks := by simpa using split
      exact blank
    · rw [lexemes_lexeme scanned] at none
      cases none
  · exact fun blank => ⟨_, lexemes_finished (scan_blank blank)⟩

/-- What a scan reads where a lexeme comes first. -/
theorem scan_some {l : Lexeme} {later : List Lexeme} (first : (Cursor.lexemes ⟨cs, .behind before⟩).1 = l :: later) :
    ∃ blanks slice rest, cs = blanks ++ slice ++ rest ∧
      Cursor.scan ⟨cs, .behind before⟩ = (.lexeme l, ⟨rest, .behind (before ++ blanks ++ slice)⟩) := by
  obtain ⟨blanks, _, ⟨_, _, _, _, _, none⟩ | ⟨t, slice, rest, split, _, _, _, scanned⟩⟩ :=
    scan_reads (c := ⟨cs, .behind before⟩) rfl
  · rw [none] at first
    cases first
  · rw [lexemes_lexeme scanned] at first
    obtain ⟨rfl, _⟩ := List.cons.inj first
    exact ⟨blanks, slice, rest, split, scanned⟩

/-- Lexing a text that ends in a semicolon goes on behind it with what follows the text. -/
theorem lexemes_before_more {ls : List Lexeme} {semicolon : Lexeme} {p : Position}
    (ended : semicolon.token = .semicolon)
    (all : Cursor.lexemes ⟨cs, .behind before⟩ = (ls ++ [semicolon], .finished p)) :
    Cursor.lexemes ⟨cs ++ more, .behind before⟩ =
      (ls ++ semicolon :: (Cursor.lexemes ⟨more, .behind (before ++ cs)⟩).1,
        (Cursor.lexemes ⟨more, .behind (before ++ cs)⟩).2) := by
  induction ls generalizing before cs with
  | nil =>
    obtain ⟨blanks, slice, rest, rfl, scanned⟩ := scan_some (congrArg Prod.fst all)
    rw [lexemes_lexeme scanned, Prod.mk.injEq] at all
    -- The semicolon is the last lexeme, so that only blanks come before what follows.
    obtain ⟨_, none⟩ := List.cons.inj all.1
    have blank := lexemes_none_iff.mp ⟨p, Prod.ext none all.2⟩
    rw [lexemes_lexeme (scan_inside more scanned (.inr ended)), lexemes_behind_blanks more blank]
    simp only [List.append_assoc, List.nil_append]
  | cons l ls ih =>
    obtain ⟨blanks, slice, rest, rfl, scanned⟩ := scan_some (congrArg Prod.fst all)
    rw [lexemes_lexeme scanned, Prod.mk.injEq] at all
    obtain ⟨_, later⟩ := List.cons.inj all.1
    have some : rest ≠ [] := by
      rintro rfl
      rw [lexemes_finished (scan_blank (by simp))] at later
      simp at later
    rw [lexemes_lexeme (scan_inside more scanned (.inl some)), ih (Prod.ext later all.2)]
    simp only [List.append_assoc, List.cons_append]

end Before

/-! ## A statement and what follows -/

/-- What a text is lexed as behind another text: as by itself, at the places further on. -/
def lexemesBehind (front more : String) : List Lexeme × Ending :=
  ((Cursor.start more).lexemes.1.map (·.moved (.behind front.toList)),
    (Cursor.start more).lexemes.2.moved (.behind front.toList))

theorem lexemesBehind_eq (front more : String) :
    lexemesBehind front more = Cursor.lexemes ⟨more.toList, .behind front.toList⟩ :=
  (moved_lexemes (.start more) ⟨Nat.le_refl _, Nat.le_refl _⟩).symm

theorem lexemesBehind_none_iff {front more : String} :
    (∃ p, lexemesBehind front more = ([], .finished p)) ↔ ∀ c ∈ more.toList, isBlank c = true := by
  rw [lexemesBehind_eq]
  exact lexemes_none_iff

/-- A text that ends in a semicolon is lexed alike before any other, whose lexemes come behind. -/
theorem lexemes_append {front : String} {ls : List Lexeme} {semicolon : Lexeme} {p : Position}
    (ended : semicolon.token = .semicolon) (all : (Cursor.start front).lexemes = (ls ++ [semicolon], .finished p))
    (more : String) :
    (Cursor.start (front ++ more)).lexemes =
      (ls ++ semicolon :: (lexemesBehind front more).1, (lexemesBehind front more).2) := by
  rw [lexemesBehind_eq, start_eq String.toList_append]
  exact lexemes_before_more more.toList ended all

/-- The error of a whole text behind whose statement something is left: its first lexeme where the
    text should have ended, or the error that stands there in its stead. -/
inductive Refused : List Lexeme × Ending → Error → Prop where
  | lexeme {l : Lexeme} {later : List Lexeme} {ending : Ending} :
      Refused (l :: later, ending) (.unexpected l.position .endOfInput (some l.token))
  | error {e : Error} {after : Cursor} : Refused ([], .failed e after) e

namespace Parser

theorem run_bind_of_ok {α β : Type} {p : Parser α} {f : α → Parser β} {i middle : Input} {a : α}
    (first : p.run i = .ok a middle) : (p >>= f).run i = (f a).run middle := by
  show (andThen p f).run i = _
  simp only [andThen, first]

section Lexemes

variable {ls : List Lexeme} {semicolon : Lexeme} {s : Statement} (derived : Unended (ls.map Lexeme.token) s)
  (ended : semicolon.token = .semicolon) (later : List Lexeme) (ending : Ending) (finish : Position)

include derived ended

/-- A statement is read up to its semicolon, and what is behind is left. -/
theorem run_statement_before :
    statement.run ⟨ls ++ semicolon :: later, ending, finish, 0⟩ = .ok s ⟨semicolon :: later, ending, finish, 0⟩ := by
  have next : (⟨semicolon :: later, ending, finish, 0⟩ : Input).token? = some .semicolon := congrArg some ended
  refine reads_statement.complete rfl derived (begins_front ls (semicolon :: later) ending finish 0) ?_
  rw [Input.rank_of_token next]
  decide

/-- Behind a statement and its semicolon a whole text has to end. -/
theorem run_wholeStatement_before :
    (wholeStatement.run ⟨ls ++ semicolon :: later, ending, finish, 0⟩).answer =
      (endOfInput.run ⟨later, ending, finish, 0⟩).answer.map fun _ => s := by
  have passed : (expect .semicolon).run ⟨semicolon :: later, ending, finish, 0⟩ = .ok () ⟨later, ending, finish, 0⟩ :=
    run_expect.mpr ⟨congrArg some ended, rfl⟩
  unfold wholeStatement
  rw [run_bind_of_ok (run_statement_before derived ended later ending finish), run_bind_of_ok passed]
  show ((andThen endOfInput fun _ => succeed s).run ⟨later, ending, finish, 0⟩).answer = _
  cases final : endOfInput.run ⟨later, ending, finish, 0⟩ with
  | ok u rest =>
    simp only [andThen, final]
    rfl
  | error e rest =>
    simp only [andThen, final]
    rfl

end Lexemes

/-- A text ends where nothing is found, and otherwise it is refused. -/
theorem endOfInput_or_refused (found : List Lexeme × Ending) (finish : Position) :
    (∃ p, found = ([], .finished p)) ∧ (endOfInput.run ⟨found.1, found.2, finish, 0⟩).answer = .ok () ∨
      (¬ ∃ p, found = ([], .finished p)) ∧
        ∃ e, (endOfInput.run ⟨found.1, found.2, finish, 0⟩).answer = .error e ∧ Refused found e := by
  obtain ⟨lexemes, ending⟩ := found
  cases lexemes with
  | cons l later => exact .inr ⟨by simp, _, rfl, .lexeme⟩
  | nil =>
    cases ending with
    | finished p => exact .inl ⟨⟨p, rfl⟩, rfl⟩
    | failed e after => exact .inr ⟨by simp, _, rfl, .error⟩

end Parser

/-- The lexemes of a text that is a statement: those of the statement without its end, and its
    semicolon. -/
theorem lexemes_of_parse {text : String} {s : Statement} (parsed : Statement.parse text = .ok s) :
    ∃ ls semicolon p, (Cursor.start text).lexemes = (ls ++ [semicolon], .finished p) ∧
      semicolon.token = .semicolon ∧ Parser.Unended (ls.map Lexeme.token) s := by
  obtain ⟨ts, ⟨lexemes, p, all, tokens⟩, derived⟩ := parse_eq_ok_iff.mp parsed
  obtain ⟨us, rfl, unended⟩ := Parser.statementOf_iff.mp derived
  obtain ⟨ls, last, rfl, rfl, semicolon⟩ := List.map_eq_append_iff.mp tokens
  obtain ⟨l, rfl, ended⟩ := List.map_eq_singleton_iff.mp semicolon
  exact ⟨ls, l, p, all, ended, unended⟩

/-- A statement ends at its semicolon, whatever text follows. It is read from the longer text as from
    its own, and its semicolon is left and then the lexemes that the other text has by itself, at their
    places in the longer one, up to the first error. The longer text as a whole is a statement if and
    only if all that follows is blank, and then it is this one; otherwise it fails at the first of what
    follows, which is either a lexeme where the text should have ended, or an error. -/
theorem parse_append {front : String} {s : Statement} (parsed : Statement.parse front = .ok s) (more : String) :
    (∃ semicolon, (Cursor.start front).lexemes.1.getLast? = some semicolon ∧ semicolon.token = .semicolon ∧
      Statement.parseFront (front ++ more) =
        (.ok s, ⟨semicolon :: (lexemesBehind front more).1, (lexemesBehind front more).2,
          .finish (front ++ more), 0⟩)) ∧
    (∀ other, Statement.parse (front ++ more) = .ok other ↔ other = s ∧ ∀ c ∈ more.toList, isBlank c = true) ∧
    ((∃ c ∈ more.toList, isBlank c = false) →
      ∃ e, Statement.parse (front ++ more) = .error e ∧ Refused (lexemesBehind front more) e) := by
  obtain ⟨ls, semicolon, p, all, ended, derived⟩ := lexemes_of_parse parsed
  have input : Input.ofText (front ++ more) =
      ⟨ls ++ semicolon :: (lexemesBehind front more).1, (lexemesBehind front more).2, .finish (front ++ more), 0⟩ := by
    rw [Input.ofText, Input.ofCursor, lexemes_append ended all]
  refine ⟨⟨semicolon, ?_, ended, ?_⟩, ?_⟩
  · rw [all]
    exact List.getLast?_concat
  · rw [Statement.parseFront, input, Parser.run_statement_before derived ended]
    rfl
  let left : Input := ⟨(lexemesBehind front more).1, (lexemesBehind front more).2, .finish (front ++ more), 0⟩
  have answer : Statement.parse (front ++ more) = (Parser.endOfInput.run left).answer.map fun _ => s := by
    rw [Statement.parse, input, Parser.run_wholeStatement_before derived ended]
  rcases Parser.endOfInput_or_refused (lexemesBehind front more) (.finish (front ++ more)) with
    ⟨nothing, done⟩ | ⟨some, e, failed, refused⟩
  · have blank := lexemesBehind_none_iff.mp nothing
    rw [answer, show (Parser.endOfInput.run left).answer = .ok () from done]
    refine ⟨fun other => ⟨fun same => ?_, ?_⟩, ?_⟩
    · cases same
      exact ⟨rfl, blank⟩
    · rintro ⟨rfl, _⟩
      rfl
    · rintro ⟨c, member, begins⟩
      rw [blank c member] at begins
      cases begins
  · rw [answer, show (Parser.endOfInput.run left).answer = .error e from failed]
    refine ⟨fun other => ⟨fun same => ?_, ?_⟩, fun _ => ⟨e, rfl, refused⟩⟩
    · cases same
    · rintro ⟨_, blank⟩
      exact absurd (lexemesBehind_none_iff.mpr blank) some

/-- The theorem at a text behind whose statement half a reference stands, in the second line. -/
theorem parse_append_half_reference :
    let s := Statement.query (.union [.select ⟨[.lit (.int 1)], none, none, none⟩ none])
    let error := Error.foreignCharacter ⟨12, 2, 3⟩ 'x'
    Statement.parse "select 1;\n " = .ok s ∧
      Statement.parseFront ("select 1;\n " ++ "$x") =
        (.ok s, ⟨[⟨⟨8, 1, 9⟩, .semicolon⟩], .failed error ⟨['x'], ⟨12, 2, 3⟩⟩, ⟨13, 2, 4⟩, 0⟩) ∧
      Statement.parse ("select 1;\n " ++ "$x") = .error error := by
  intro s error
  have parsed : Statement.parse "select 1;\n " = .ok s := by with_unfolding_all rfl
  have last : (Cursor.start "select 1;\n ").lexemes.1.getLast? = some ⟨⟨8, 1, 9⟩, .semicolon⟩ := by
    with_unfolding_all rfl
  have behind : lexemesBehind "select 1;\n " "$x" = ([], .failed error ⟨['x'], ⟨12, 2, 3⟩⟩) := by with_unfolding_all rfl
  obtain ⟨⟨semicolon, found, _, front⟩, _, refused⟩ := parse_append parsed "$x"
  cases found.symm.trans last
  rw [behind] at front refused
  obtain ⟨e, failed, stands⟩ := refused ⟨'$', by decide, by decide⟩
  cases stands
  exact ⟨parsed, front, failed⟩

end StreamQuery
