import StreamQuery.Error
import StreamQuery.Text.Alphabetic
import StreamQuery.Text.Blank
import StreamQuery.Text.Numeric

/-!
# A cursor in a text

The text still to be read together with the place where it begins, and the classes of
characters that words consist of.
-/

namespace StreamQuery

namespace Text

/-- A decimal digit, 0 to 9. -/
def isDigit (c : Char) : Bool := c.isDigit

/-- What a word may continue with: letters and numerals of every script, and the
    underscore. -/
def isWordChar (c : Char) : Bool := isAlphabetic c || isNumeric c || c == '_'

end Text

/-- The text still to be read and the place where it begins. -/
structure Cursor where
  rest : List Char
  position : Position
  deriving DecidableEq

namespace Cursor

def start (text : String) : Cursor := ⟨text.toList, .start⟩

def advance (c : Cursor) (n : Nat) : Cursor :=
  ⟨c.rest.drop n, c.position.after (c.rest.take n)⟩

def skipBlanks (c : Cursor) : Cursor := c.advance (c.rest.takeWhile Text.isBlank).length

/-- The error of a cursor that stands before the wrong character, or at the end where
    more text was expected. -/
def failure (c : Cursor) (expected : Expectation) : Error :=
  match c.rest with
  | found :: _ => .foreignCharacter c.position found
  | [] => .unexpected c.position expected none

theorem length_advance (c : Cursor) (n : Nat) :
    (c.advance n).rest.length = c.rest.length - n := by
  simp [advance]

theorem length_skipBlanks_le (c : Cursor) : c.skipBlanks.rest.length ≤ c.rest.length := by
  rw [skipBlanks, length_advance]; omega

end Cursor

end StreamQuery
