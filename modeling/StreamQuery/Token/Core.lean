import StreamQuery.Token.Cursor

/-!
# The core vocabulary

A minimal vocabulary of its own: four keywords, identifiers and the end of a statement.
Here a keyword is recognised by its letters alone, where the capitals A to Z count as
small letters, and it has to end where a word ends.
-/

namespace StreamQuery

inductive CoreToken where
  | select
  | true
  | false
  | rename
  | statementEnd
  | identifier (name : String)
  deriving DecidableEq

namespace CoreToken

/-- The keywords with their tokens, in the order in which they are tried. -/
def keywords : List (String × CoreToken) :=
  [("select", select), ("true", .true), ("false", .false), ("as", rename)]

/-- Whether a text begins with a keyword and the keyword ends there. -/
def opens (keyword : String) (cs : List Char) : Bool :=
  let size := keyword.toList.length
  (cs.take size).map Char.toLower == keyword.toList &&
    !(cs.drop size).head?.any Text.isWordChar

/-- The token at the beginning of a text that begins with the given character, and how
    many characters it has after the first. -/
def of? (first : Char) (cs : List Char) : Option (CoreToken × Nat) :=
  if first = ';' then some (statementEnd, 0)
  else
    match keywords.find? fun (keyword, _) => opens keyword (first :: cs) with
    | some (keyword, token) => some (token, keyword.toList.length - 1)
    | none =>
      if Text.isAlphabetic first then
        let tail := cs.takeWhile Text.isWordChar
        some (identifier (String.ofList (first :: tail)), tail.length)
      else none

/-- The tokens before a cursor. The first character that begins none is an error. -/
def tokensAt (c : Cursor) : Except Error (List CoreToken) :=
  match _h : c.skipBlanks.rest with
  | [] => .ok []
  | first :: cs =>
    match of? first cs with
    | none => .error (.foreignCharacter c.skipBlanks.position first)
    | some (token, more) => (token :: ·) <$> tokensAt (c.skipBlanks.advance (more + 1))
termination_by c.rest.length
decreasing_by
  have skipped := c.length_skipBlanks_le
  rw [Cursor.length_advance]
  have : 0 < c.skipBlanks.rest.length := by rw [_h]; simp
  omega

def tokens (text : String) : Except Error (List CoreToken) := tokensAt (.start text)

end CoreToken

end StreamQuery
