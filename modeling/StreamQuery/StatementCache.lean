import StreamQuery.Parser.Statement

/-!
# A cache of statements

Statements that were parsed before are kept by their text, without the blanks around it,
so that a repeated text shares one tree. They are kept in a store of limited capacity.
Texts that are no statement are not kept.
-/

namespace StreamQuery

/-- A parsed statement that several requests may share. Each time a text is parsed the
    tree gets a serial number of its own. -/
structure SharedStatement where
  statement : Statement
  serial : Nat

/-- A map from texts to statements with room for a limited number of them. Looking up a
    text may change which statement makes room next. -/
class StatementStore (κ : Type) where
  /-- The empty store with a capacity. -/
  ofCapacity (capacity : Nat) (positive : 0 < capacity) : κ
  /-- The statement that is kept under a text, if one is, and the store afterwards. -/
  get : κ → String → Option SharedStatement × κ
  /-- The store with a statement under a text. -/
  put : κ → String → SharedStatement → κ
  /-- The store without its statements. -/
  clear : κ → κ
  /-- How many statements are kept. -/
  size : κ → Nat

/-- Statements by their texts, the most recently used first. When there is no room left the
    one that has gone unused for longest goes. -/
structure RecentStatements where
  capacity : Nat
  positive : 0 < capacity
  entries : List (String × SharedStatement)

namespace RecentStatements

/-- The entries with that of a text in front, which is the only one of the text. -/
def inFront (r : RecentStatements) (key : String) (s : SharedStatement) :
    List (String × SharedStatement) :=
  (key, s) :: r.entries.filter (·.1 ≠ key)

/-- The statement that is kept under a text, which is then the most recently used one. -/
def get (r : RecentStatements) (key : String) : Option SharedStatement × RecentStatements :=
  match r.entries.lookup key with
  | some s => (some s, { r with entries := r.inFront key s })
  | none => (none, r)

/-- The store with a statement under a text as the most recently used one. -/
def put (r : RecentStatements) (key : String) (s : SharedStatement) : RecentStatements :=
  { r with entries := (r.inFront key s).take r.capacity }

instance : StatementStore RecentStatements where
  ofCapacity capacity positive := ⟨capacity, positive, []⟩
  get := get
  put := put
  clear r := { r with entries := [] }
  size r := r.entries.length

end RecentStatements

/-- A store of parsed statements, and how many were parsed for it. -/
structure StatementCache (κ : Type := RecentStatements) where
  store : κ
  parsed : Nat

namespace StatementCache

/-- The capacity of a cache for which none was chosen. -/
def defaultCapacity : Nat := 1000

/-- An empty cache. Every cache has room for at least one statement. -/
def ofCapacity (capacity : Nat) (κ : Type := RecentStatements) [StatementStore κ] :
    StatementCache κ :=
  ⟨StatementStore.ofCapacity (max 1 capacity) (Nat.le_max_left 1 capacity), 0⟩

variable {κ : Type} [StatementStore κ]

def size (c : StatementCache κ) : Nat := StatementStore.size c.store

/-- The statement of a text: the one that is kept, or else the text parsed anew. An error
    is not kept. -/
def parse (c : StatementCache κ) (text : String) :
    Except Error SharedStatement × StatementCache κ :=
  let key := Text.trim text
  match StatementStore.get c.store key with
  | (some s, store) => (.ok s, { c with store := store })
  | (none, store) =>
    match Statement.parse text with
    | .error e => (.error e, { c with store := store })
    | .ok statement =>
      let s : SharedStatement := ⟨statement, c.parsed⟩
      (.ok s, ⟨StatementStore.put store key s, c.parsed + 1⟩)

def clear (c : StatementCache κ) : StatementCache κ :=
  { c with store := StatementStore.clear c.store }

end StatementCache

end StreamQuery
