import StreamQuery.Proofs.Lexing
import StreamQuery.Proofs.ReadStatement

/-!
# Blanks around a text

Blanks at either end of a text change the positions of its lexemes and nothing else: the tokens are
the same, and the text ends with an error or without as before. So texts that are the same without
those blanks are the same statement, or none.
-/

namespace StreamQuery

open Text

/-! ## Trimming -/

theorem trimBlanks_surrounded (cs : List Char) : ∃ lead trail, cs = lead ++ trimBlanks cs ++ trail ∧
    (∀ c ∈ lead, isBlank c = true) ∧ ∀ c ∈ trail, isBlank c = true := by
  refine ⟨cs.takeWhile isBlank, ((cs.dropWhile isBlank).reverse.takeWhile isBlank).reverse, ?_,
    fun c member => List.mem_takeWhile_imp member, fun c member => ?_⟩
  · unfold trimBlanks
    rw [List.append_assoc, ← List.reverse_append, List.takeWhile_append_dropWhile, List.reverse_reverse,
      List.takeWhile_append_dropWhile]
  · exact List.mem_takeWhile_imp (List.mem_reverse.mp member)

/-! ## One lexeme before blanks -/

theorem symbol_alone {first : Char} {cs : List Char} (less : first ≠ '<') (greater : first ≠ '>') :
    Reading.symbol (first :: cs) = Reading.symbol [first] := by
  unfold Reading.symbol
  split <;> simp_all

theorem symbol_stop {first c : Char} {cs : List Char} (equal : c ≠ '=') (greater : c ≠ '>') :
    Reading.symbol (first :: c :: cs) = Reading.symbol [first] := by
  unfold Reading.symbol
  split <;> simp_all

/-- No symbol has more than two characters. -/
theorem symbol_two (first c : Char) (cs : List Char) :
    Reading.symbol (first :: c :: cs) = Reading.symbol [first, c] := by
  by_cases second : c = '=' ∨ c = '>'
  · by_cases both : first = '<' ∨ first = '>'
    · rcases second with rfl | rfl <;> rcases both with rfl | rfl <;> rfl
    · rw [not_or] at both
      exact (symbol_alone both.1 both.2).trans (symbol_alone both.1 both.2).symm
  · rw [not_or] at second
    exact (symbol_stop second.1 second.2).trans (symbol_stop second.1 second.2).symm

section OneLexeme

variable {trail : List Char} (blank : ∀ c ∈ trail, isBlank c = true)

include blank

theorem takeWhile_before_blanks {p : Char → Bool} (stop : ∀ c, isBlank c = true → p c = false) (cs : List Char) :
    (cs ++ trail).takeWhile p = cs.takeWhile p := by
  induction cs with
  | nil =>
    cases trail with
    | nil => rfl
    | cons c trail => exact List.takeWhile_cons_of_neg (by simp [stop c (blank c List.mem_cons_self)])
  | cons c cs ih =>
    rw [List.cons_append, List.takeWhile_cons, List.takeWhile_cons, ih]

theorem reference_before_blanks (cs : List Char) : Reading.reference (cs ++ trail) = Reading.reference cs := by
  have digits : (cs ++ trail).takeWhile isDigit = cs.takeWhile isDigit :=
    takeWhile_before_blanks blank (fun c h => (blank_spec h).2.1) cs
  have behind : (cs ++ trail).drop (cs.takeWhile isDigit).length =
      cs.drop (cs.takeWhile isDigit).length ++ trail :=
    List.drop_append_of_le_length (List.takeWhile_prefix _).length_le
  unfold Reading.reference
  simp only [digits, behind]
  split_ifs with none
  · rfl
  generalize cs.drop (cs.takeWhile isDigit).length = rest
  rcases rest with _ | ⟨d, _ | ⟨e, tail⟩⟩
  · cases trail with
    | nil => rfl
    | cons c trail =>
      have other : c ≠ '.' := by
        rintro rfl
        exact absurd (blank '.' List.mem_cons_self) (by decide)
      simp [other]
  · by_cases dot : d = '.'
    · subst dot
      cases trail with
      | nil => rfl
      | cons c trail =>
        have other : isAlphabetic c = false := not_alphabetic_of_blank (blank c List.mem_cons_self)
        simp [other]
    · simp [dot]
  · by_cases dot : d = '.'
    · subst dot
      simp only [List.cons_append]
      rw [takeWhile_before_blanks blank (fun c h => (blank_spec h).1)]
    · simp [dot]

theorem symbol_before_blanks (first : Char) (cs : List Char) :
    Reading.symbol (first :: (cs ++ trail)) = Reading.symbol (first :: cs) := by
  cases cs with
  | cons second cs => exact (symbol_two first second _).trans (symbol_two first second cs).symm
  | nil =>
    cases trail with
    | nil => rfl
    | cons c trail =>
      obtain ⟨_, _, equal, greater⟩ := blank_spec (blank c List.mem_cons_self)
      exact symbol_stop equal greater

/-- Blanks at the end do not change how a text reads. -/
theorem reading_before_blanks (first : Char) (cs : List Char) :
    Reading.of first (cs ++ trail) = Reading.of first cs := by
  unfold Reading.of Reading.number Reading.word
  rw [reference_before_blanks blank, symbol_before_blanks blank,
    takeWhile_before_blanks blank fun c h => (blank_spec h).2.1,
    takeWhile_before_blanks blank fun c h => (blank_spec h).1]

end OneLexeme

theorem length_of_reading {first : Char} {cs : List Char} {t : Token} {more : Nat}
    (read : Reading.of first cs = .lexeme t more) : more ≤ cs.length := by
  unfold Reading.of at read
  split_ifs at read
  · unfold Reading.reference at read
    simp only at read
    split_ifs at read with none
    split at read
    · rename_i c tail behind
      split_ifs at read
      cases read
      have whole := congrArg List.length behind
      have word := (List.takeWhile_prefix (p := isWordChar) (l := tail)).length_le
      simp only [List.length_drop, List.length_cons] at whole ⊢
      omega
    · cases read
    · cases read
  · cases read
    exact (List.takeWhile_prefix _).length_le
  · cases read
    exact (List.takeWhile_prefix _).length_le
  · unfold Reading.symbol at read
    split at read <;> simp_all <;> omega

/-! ## All lexemes between blanks -/

/-- Scans of a text and of the text between blanks: they find the same token, and what is left is
    followed by the blanks. -/
inductive ScannedAlike (trail : List Char) : Scanned × Cursor → Scanned × Cursor → Prop where
  | finished (one other : Cursor) : ScannedAlike trail (.finished, one) (.finished, other)
  | failed (e f : Error) (one other : Cursor) : ScannedAlike trail (.failed e, one) (.failed f, other)
  | lexeme (t : Token) (p q : Position) {one other : Cursor} (rest : other.rest = one.rest ++ trail) :
      ScannedAlike trail (.lexeme ⟨p, t⟩, one) (.lexeme ⟨q, t⟩, other)

theorem blank_or_begins (cs : List Char) : (∀ c ∈ cs, isBlank c = true) ∨
    ∃ blanks first tail, cs = blanks ++ first :: tail ∧ (∀ c ∈ blanks, isBlank c = true) ∧
      isBlank first = false := by
  induction cs with
  | nil => exact .inl (by simp)
  | cons c cs ih =>
    cases blank : isBlank c with
    | false => exact .inr ⟨[], c, cs, rfl, by simp, blank⟩
    | true =>
      rcases ih with all | ⟨blanks, first, tail, rfl, some, begins⟩
      · exact .inl (List.forall_mem_cons.mpr ⟨blank, all⟩)
      · exact .inr ⟨c :: blanks, first, tail, rfl, List.forall_mem_cons.mpr ⟨blank, some⟩, begins⟩

theorem scan_between_blanks {lead trail : List Char} (blankLead : ∀ c ∈ lead, isBlank c = true)
    (blankTrail : ∀ c ∈ trail, isBlank c = true) {c d : Cursor} (split : d.rest = lead ++ c.rest ++ trail) :
    ScannedAlike trail c.scan d.scan := by
  rcases blank_or_begins c.rest with all | ⟨blanks, first, tail, rest, some, begins⟩
  · have allOther : ∀ e ∈ d.rest, isBlank e = true := by
      rw [split]
      exact List.forall_mem_append.mpr ⟨List.forall_mem_append.mpr ⟨blankLead, all⟩, blankTrail⟩
    rw [scan_blank all, scan_blank allOther]
    exact .finished _ _
  · have here : c.skipBlanks.rest = first :: tail := skipBlanks_rest rest some begins
    have splitOther : d.rest = (lead ++ blanks) ++ first :: (tail ++ trail) := by
      rw [split, rest]
      simp
    have there : d.skipBlanks.rest = first :: (tail ++ trail) :=
      skipBlanks_rest splitOther (List.forall_mem_append.mpr ⟨blankLead, some⟩) begins
    unfold Cursor.scan
    simp only [here, there, reading_before_blanks blankTrail]
    cases read : Reading.of first tail with
    | lexeme t more =>
      refine .lexeme t _ _ ?_
      show d.skipBlanks.rest.drop (more + 1) = c.skipBlanks.rest.drop (more + 1) ++ trail
      rw [here, there, List.drop_succ_cons, List.drop_succ_cons,
        List.drop_append_of_le_length (length_of_reading read)]
    | broken n expected => exact .failed _ _ _ _
    | foreign => exact .failed _ _ _ _

/-- A text and the text between blanks have the same tokens and end alike. -/
theorem lexemes_between_blanks {lead trail : List Char} (blankLead : ∀ c ∈ lead, isBlank c = true)
    (blankTrail : ∀ c ∈ trail, isBlank c = true) {c d : Cursor} (split : d.rest = lead ++ c.rest ++ trail) :
    d.lexemes.1.map Lexeme.token = c.lexemes.1.map Lexeme.token ∧
      ((∃ p, d.lexemes.2 = .finished p) ↔ ∃ p, c.lexemes.2 = .finished p) := by
  have alike := scan_between_blanks blankLead blankTrail split
  generalize one : c.scan = found, other : d.scan = foundOther at alike
  cases alike with
  | finished =>
    rw [lexemes_finished one, lexemes_finished other]
    simp
  | failed =>
    rw [lexemes_failed one, lexemes_failed other]
    simp
  | lexeme t p q rest =>
    -- Blanks in front are skipped once; behind a lexeme only those at the end are left.
    have noLead : ∀ c ∈ ([] : List Char), isBlank c = true := by simp
    obtain ⟨tokens, ending⟩ := lexemes_between_blanks noLead blankTrail rest
    rw [lexemes_lexeme one, lexemes_lexeme other]
    exact ⟨congrArg (t :: ·) tokens, ending⟩
termination_by c.rest.length
decreasing_by exact Cursor.length_scan_lt one

/-- Texts that are the same but for the blanks around them are the same statement, or none. -/
theorem parse_congr_trim {one other : String} (same : trim one = trim other) (s : Statement) :
    Statement.parse one = .ok s ↔ Statement.parse other = .ok s := by
  have trimmed : ∀ text : String,
      (Input.ofText text).lexemes.map Lexeme.token =
          (Cursor.mk (trimBlanks text.toList) .start).lexemes.1.map Lexeme.token ∧
        ((∃ p, (Input.ofText text).ending = .finished p) ↔
          ∃ p, (Cursor.mk (trimBlanks text.toList) .start).lexemes.2 = .finished p) := by
    intro text
    obtain ⟨lead, trail, split, blankLead, blankTrail⟩ := trimBlanks_surrounded text.toList
    exact lexemes_between_blanks blankLead blankTrail split
  have characters : trimBlanks one.toList = trimBlanks other.toList := String.ofList_injective same
  show (Parser.wholeStatement.run (.ofText one)).answer = .ok s ↔
    (Parser.wholeStatement.run (.ofText other)).answer = .ok s
  rw [Parser.run_wholeStatement rfl, Parser.run_wholeStatement rfl, (trimmed one).1, (trimmed one).2,
    (trimmed other).1, (trimmed other).2, characters]

end StreamQuery
