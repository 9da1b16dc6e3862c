/-!
# Positions in a text

A place in a statement: how many bytes of the text, encoded in UTF-8, come before it,
and its line and column, both counted from one. Only the line feed ends a line, and a
column counts characters.
-/

namespace StreamQuery

structure Position where
  offset : Nat
  line : Nat
  column : Nat
  deriving DecidableEq

namespace Position

def start : Position := ⟨0, 1, 1⟩

/-- The place behind one character. -/
def next (p : Position) (c : Char) : Position :=
  if c = '\n' then ⟨p.offset + c.utf8Size, p.line + 1, 1⟩
  else ⟨p.offset + c.utf8Size, p.line, p.column + 1⟩

def after (p : Position) (cs : List Char) : Position := cs.foldl next p

/-- The part of a text behind its last line feed. -/
def lastLine (cs : List Char) : List Char := (cs.reverse.takeWhile (· ≠ '\n')).reverse

/-- The place behind a whole text: its size, a line for each line feed and one more, and a column
    for each character of the last line and one more. -/
def finish (text : String) : Position :=
  ⟨text.utf8ByteSize, text.toList.count '\n' + 1, (lastLine text.toList).length + 1⟩

def display (p : Position) : String :=
  "line " ++ toString p.line ++ ", column " ++ toString p.column

end Position

end StreamQuery
