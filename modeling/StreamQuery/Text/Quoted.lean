import StreamQuery.Text.Extending
import StreamQuery.Text.Printable

/-!
# Quoted characters

A character in an error message stands in single quotes. The null character, the tab, the
line ends, the quote and the backslash have an escape of their own; a character that
does not print by itself is given by its code point in hexadecimal.
-/

namespace StreamQuery.Text

/-- The digits of a code point in lower case hexadecimal, without leading zeros. -/
def hexDigits (n : Nat) : List Char := Nat.toDigits 16 n

/-- A character that does not print by itself, by its code point. -/
def codePointEscape (c : Char) : List Char :=
  ['\\', 'u', '\x7b'] ++ hexDigits c.toNat ++ ['\x7d']

def escapeChar (c : Char) : List Char :=
  if c = '\x00' then ['\\', '0']
  else if c = '\t' then ['\\', 't']
  else if c = '\r' then ['\\', 'r']
  else if c = '\n' then ['\\', 'n']
  else if c = '\x27' then ['\\', '\x27']
  else if c = '\\' then ['\\', '\\']
  else if isExtending c then codePointEscape c
  else if isPrintable c then [c]
  else codePointEscape c

def quoteChar (c : Char) : String :=
  String.ofList ('\x27' :: escapeChar c ++ ['\x27'])

end StreamQuery.Text
