import StreamQuery.Token.Scan

/-!
# Parsers

A parser reads lexemes from the front of its input and answers with a result or an error;
either way it leaves an input. No parser that succeeds leaves more lexemes than it was
given, so that a repetition whose every round begins with a lexeme of its own ends. A parser
is put together from others, and says of an input which of them it runs and where.

The input keeps count of how deeply the construct being read is nested. A recursive
construct is read one level deeper, up to a limit, and comes back to its own level
whether it succeeds or not.
-/

namespace StreamQuery

/-- The lexemes still to be read, how they end, where the text itself ends, and how deeply the
    parser stands. -/
structure Input where
  lexemes : List Lexeme
  ending : Ending
  finish : Position
  depth : Nat
  deriving DecidableEq

/-- The deepest nesting that is read. -/
def maxNesting : Nat := 128

namespace Input

/-- The input before a cursor, in a text that ends at a position. -/
def ofCursor (c : Cursor) (finish : Position) (depth : Nat) : Input :=
  ⟨c.lexemes.1, c.lexemes.2, finish, depth⟩

def ofText (text : String) : Input := ofCursor (.start text) (.finish text) 0

def tail (i : Input) : Input := { i with lexemes := i.lexemes.tail }

def enter (i : Input) : Input := { i with depth := i.depth + 1 }

def leave (i : Input) : Input := { i with depth := i.depth - 1 }

/-- The error of an input that goes on with something other than was expected. An error
    of the lexemes themselves comes first. -/
def failure (i : Input) (expected : Expectation) : Error :=
  match i.lexemes, i.ending with
  | l :: _, _ => .unexpected l.position expected (some l.token)
  | [], .finished _ => .unexpected i.finish expected none
  | [], .failed error _ => error

end Input

/-- What a parser answers, and the input that it leaves. -/
inductive Outcome (α : Type) where
  | ok (result : α) (rest : Input)
  | error (error : Error) (rest : Input)

namespace Outcome

def rest {α : Type} : Outcome α → Input
  | ok _ rest => rest
  | error _ rest => rest

/-- The answer without the input that is left. -/
def answer {α : Type} : Outcome α → Except Error α
  | ok result _ => .ok result
  | error e _ => .error e

def mapRest {α : Type} (f : Input → Input) : Outcome α → Outcome α
  | ok result rest => .ok result (f rest)
  | error e rest => .error e (f rest)

end Outcome

/-- A parser. When it succeeds it leaves no more lexemes than it was given. The parts that it
    runs on an input are listed in the order in which they begin, each by the input that it is
    given and the one that it leaves. -/
structure Parser (α : Type) where
  run : Input → Outcome α
  parts : Input → List (Input × Input)
  shrinks : ∀ {i : Input} {a : α} {rest : Input}, run i = .ok a rest →
    rest.lexemes.length ≤ i.lexemes.length

namespace Parser

variable {α β : Type}

/-- The runs of a parser on an input: its own and those of its parts. -/
def runs (p : Parser α) (i : Input) : List (Input × Input) := (i, (p.run i).rest) :: p.parts i

/-- Succeeds and reads nothing. -/
def succeed (a : α) : Parser α where
  run i := .ok a i
  parts _ := []
  shrinks h := by cases h; exact Nat.le_refl _

/-- Reads by one parser and then by the one that its result gives. -/
def andThen (p : Parser α) (f : α → Parser β) : Parser β where
  run i :=
    match p.run i with
    | .ok a rest => (f a).run rest
    | .error e rest => .error e rest
  parts i :=
    p.runs i ++
      match p.run i with
      | .ok a rest => (f a).runs rest
      | .error _ _ => []
  shrinks {i b rest} h := by
    cases first : p.run i with
    | ok a middle =>
      rw [first] at h
      exact Nat.le_trans ((f a).shrinks h) (p.shrinks first)
    | error e middle => rw [first] at h; cases h

instance : Monad Parser where
  pure := succeed
  bind := andThen

/-- Fails with an error and reads nothing. -/
def fail (e : Error) : Parser α where
  run i := .error e i
  parts _ := []
  shrinks h := by cases h

/-- Fails because something else was expected than what comes next. -/
def unexpected (expected : Expectation) : Parser α where
  run i := .error (i.failure expected) i
  parts _ := []
  shrinks h := by cases h

/-- The next token, unread. An error of the lexemes is the parser's error. -/
def peek : Parser (Option Token) where
  run i :=
    match i.lexemes, i.ending with
    | l :: _, _ => .ok (some l.token) i
    | [], .finished _ => .ok none i
    | [], .failed e _ => .error e i
  parts _ := []
  shrinks {i a rest} h := by
    split at h <;> cases h
    all_goals exact Nat.le_refl _

/-- Reads the next lexeme. At an error of the lexemes it reads the error too, so that
    what is left is the text behind it. -/
def next (expected : Expectation) : Parser Lexeme where
  run i :=
    match i.lexemes, i.ending with
    | l :: _, _ => .ok l i.tail
    | [], .finished _ => .error (i.failure expected) i
    | [], .failed e after => .error e (.ofCursor after i.finish i.depth)
  parts _ := []
  shrinks {i a rest} h := by
    split at h <;> cases h
    simp [Input.tail]

/-- Reads the next lexeme if the function gives its token a value, and answers with
    that. An error of the lexemes is left to be found by whoever reads on. -/
def accept? (f : Token → Option α) : Parser (Option α) where
  run i :=
    match i.lexemes with
    | l :: _ =>
      match f l.token with
      | some a => .ok (some a) i.tail
      | none => .ok none i
    | [] => .ok none i
  parts _ := []
  shrinks {i a rest} h := by
    split at h
    · split at h <;> cases h
      · simp [Input.tail]
      · exact Nat.le_refl _
    · cases h; exact Nat.le_refl _

/-- Gives a value to the given token alone. -/
def exactly (t : Token) : Token → Option Unit := fun u => if u = t then some () else none

/-- Reads the next lexeme if it is the given token, and answers whether it was. -/
def accept (t : Token) : Parser Bool := (·.isSome) <$> accept? (exactly t)

/-- Reads the next lexeme, whose token has to get a value from the function. -/
def require (expected : Expectation) (f : Token → Option α) : Parser α := do
  match ← accept? f with
  | some a => return a
  | none => unexpected expected

def expect (t : Token) : Parser Unit := require (.token t) (exactly t)

def identifier : Parser String :=
  require .identifier fun
    | .ident name => some name
    | _ => none

theorem length_rest_lt {i rest : Input} {b : β} {l : Lexeme} {p : Parser β}
    (lexemes : i.lexemes.head? = some l) (read : p.run i.tail = .ok b rest) :
    rest.lexemes.length < i.lexemes.length := by
  have shorter := p.shrinks read
  cases h : i.lexemes with
  | nil => simp [h] at lexemes
  | cons _ _ =>
    simp only [Input.tail, h, List.tail_cons] at shorter
    simp only [List.length_cons]
    omega

/-- As long as the function gives the next token a value: reads it and then by the parser
    for that value. -/
def runMany (lead : Token → Option α) (p : α → Parser β) (i : Input) : Outcome (List β) :=
  match _lexemes : i.lexemes.head? with
  | none => .ok [] i
  | some l =>
    match lead l.token with
    | none => .ok [] i
    | some a =>
      match _read : (p a).run i.tail with
      | .error e rest => .error e rest
      | .ok b rest =>
        match runMany lead p rest with
        | .error e rest => .error e rest
        | .ok bs rest => .ok (b :: bs) rest
termination_by i.lexemes.length
decreasing_by exact length_rest_lt _lexemes _read

/-- The runs of the parts of a repetition: in each round that of its part, and then that of
    the rounds behind it. -/
def partsOfMany (lead : Token → Option α) (p : α → Parser β) (i : Input) : List (Input × Input) :=
  match _lexemes : i.lexemes.head? with
  | none => []
  | some l =>
    match lead l.token with
    | none => []
    | some a =>
      (p a).runs i.tail ++
        match _read : (p a).run i.tail with
        | .error _ _ => []
        | .ok _ rest => (rest, (runMany lead p rest).rest) :: partsOfMany lead p rest
termination_by i.lexemes.length
decreasing_by exact length_rest_lt _lexemes _read

/-- Reads any number of parts, each led by a token of its own. -/
def many (lead : Token → Option α) (p : α → Parser β) : Parser (List β) where
  run := runMany lead p
  parts := partsOfMany lead p
  shrinks {i bs rest} h := by
    fun_induction runMany lead p i generalizing bs with
    | case1 | case2 => cases h; exact Nat.le_refl _
    | case3 => cases h
    | case4 => cases h
    | case5 i l lexemes a _ b middle read bs' rest' _ ih =>
      cases h
      exact Nat.le_of_lt (Nat.lt_of_le_of_lt (ih (by assumption)) (length_rest_lt lexemes read))

def commaSeparated (p : Parser α) : Parser (List α) := do
  let first ← p
  let others ← many (exactly .comma) fun _ => p
  return first :: others

/-- Reads one level deeper and comes back, whatever the answer. -/
def deeper (p : Parser α) : Parser α where
  run i := (p.run i.enter).mapRest Input.leave
  parts i := p.runs i.enter
  shrinks {i a rest} h := by
    cases inner : p.run i.enter with
    | ok b middle =>
      rw [inner] at h
      cases h
      have shorter := p.shrinks inner
      exact shorter
    | error e middle => rw [inner] at h; cases h

/-- A recursive parser with `levels` levels left: each use of itself is one level deeper,
    and where no level is left the limit is what was expected. -/
def within {ι : Type} (body : (ι → Parser α) → ι → Parser α) : Nat → ι → Parser α
  | 0, _ => unexpected .nestingWithinLimit
  | levels + 1, i => deeper (body (within body levels) i)

/-- A recursive parser at the depth where it is used, with the levels left to the
    limit. -/
def recursive {ι : Type} (body : (ι → Parser α) → ι → Parser α) (x : ι) : Parser α where
  run i := (within body (maxNesting - i.depth) x).run i
  parts i := (within body (maxNesting - i.depth) x).runs i
  shrinks h := (within body _ x).shrinks h

end Parser

end StreamQuery
