import StreamQuery.Token.Cursor

/-!
# Lexemes of a text

The scanner reads one lexeme after another, longest first, and skips the blanks between
them. Where no lexeme begins it reports the character in the way and stays before it; in
an unfinished column reference it reports the place where the reference breaks off and
stays there.
-/

namespace StreamQuery

/-- How a text reads that begins with no blank: as a token of one character and `more`
    others; as one that breaks off after `read` characters, where something else was
    expected; or as nothing. -/
inductive Reading where
  | lexeme (token : Token) (more : Nat)
  | broken (read : Nat) (expected : Expectation)
  | foreign
  deriving DecidableEq

namespace Reading

/-- A reference to a column of a joined stream, read behind its dollar sign: the digits
    of an index, a dot, and a word. -/
def reference (cs : List Char) : Reading :=
  let index := cs.takeWhile Text.isDigit
  if index.isEmpty then .broken 1 .streamIndex
  else
    match cs.drop index.length with
    | '.' :: c :: tail =>
      if Text.isAlphabetic c then
        let name := c :: tail.takeWhile Text.isWordChar
        .lexeme (.ident (String.ofList ('$' :: index ++ '.' :: name)))
          (index.length + 1 + name.length)
      else .broken (index.length + 2) .columnName
    | ['.'] => .broken (index.length + 2) .columnName
    | _ => .broken (index.length + 1) .dotAfterIndex

/-- A number, read behind its first digit. -/
def number (first : Char) (cs : List Char) : Reading :=
  let digits := cs.takeWhile Text.isDigit
  .lexeme (.number (String.ofList (first :: digits))) digits.length

/-- A word, read behind its first letter. -/
def word (first : Char) (cs : List Char) : Reading :=
  let tail := cs.takeWhile Text.isWordChar
  .lexeme (.ofWord (String.ofList (first :: tail))) tail.length

/-- A symbol; of two that fit, the longer one. -/
def symbol : List Char → Reading
  | '<' :: '=' :: _ => .lexeme .lessOrEqual 1
  | '<' :: '>' :: _ => .lexeme .notEqual 1
  | '>' :: '=' :: _ => .lexeme .greaterOrEqual 1
  | '<' :: _ => .lexeme .lessThan 0
  | '>' :: _ => .lexeme .greaterThan 0
  | '=' :: _ => .lexeme .equal 0
  | '*' :: _ => .lexeme .asterisk 0
  | '/' :: _ => .lexeme .slash 0
  | '+' :: _ => .lexeme .plus 0
  | '-' :: _ => .lexeme .minus 0
  | '(' :: _ => .lexeme .openParen 0
  | ')' :: _ => .lexeme .closeParen 0
  | ',' :: _ => .lexeme .comma 0
  | ';' :: _ => .lexeme .semicolon 0
  | _ => .foreign

/-- How a text reads that begins with the given character. The first character tells the
    kind of the lexeme. -/
def of (first : Char) (cs : List Char) : Reading :=
  if first = '$' then reference cs
  else if Text.isDigit first then number first cs
  else if Text.isAlphabetic first then word first cs
  else symbol (first :: cs)

end Reading

/-- What a cursor finds: the end of the text, a lexeme, or an error. -/
inductive Scanned where
  | finished
  | lexeme (lexeme : Lexeme)
  | failed (error : Error)
  deriving DecidableEq

namespace Cursor

/-- What comes next in the text, and the cursor behind it. -/
def scan (c : Cursor) : Scanned × Cursor :=
  let here := c.skipBlanks
  match here.rest with
  | [] => (.finished, here)
  | first :: cs =>
    match Reading.of first cs with
    | .lexeme token more => (.lexeme ⟨here.position, token⟩, here.advance (more + 1))
    | .broken read expected =>
      let stuck := here.advance read
      (.failed (stuck.failure expected), stuck)
    | .foreign => (.failed (.foreignCharacter here.position first), here)

theorem length_scan_lt {c after : Cursor} {l : Lexeme} (h : c.scan = (.lexeme l, after)) :
    after.rest.length < c.rest.length := by
  have skipped := c.length_skipBlanks_le
  unfold scan at h
  simp only at h
  split at h
  · simp at h
  · rename_i first cs rest
    split at h
    · rename_i token more _
      simp only [Prod.mk.injEq, Scanned.lexeme.injEq] at h
      rw [← h.2, length_advance]
      have : 0 < c.skipBlanks.rest.length := by rw [rest]; simp
      omega
    · simp at h
    · simp at h

end Cursor

/-- How the lexemes of a text end: at the end of the text, or with an error and the cursor
    that it leaves. -/
inductive Ending where
  | finished (position : Position)
  | failed (error : Error) (after : Cursor)
  deriving DecidableEq

/-- The lexemes before a cursor, up to the end or the first error. -/
def Cursor.lexemes (c : Cursor) : List Lexeme × Ending :=
  match _h : c.scan with
  | (.finished, after) => ([], .finished after.position)
  | (.failed error, after) => ([], .failed error after)
  | (.lexeme l, after) =>
    let tail := after.lexemes
    (l :: tail.1, tail.2)
termination_by c.rest.length
decreasing_by exact length_scan_lt _h

end StreamQuery
