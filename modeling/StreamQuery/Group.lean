import StreamQuery.Aggregate.Fold
import StreamQuery.Stream

/-!
# Groups

Rows are folded group by group. A group has a key, and for each of the aggregate
functions a state. Groups are kept in increasing order of their keys.
-/

namespace StreamQuery

/-- The states of the functions for each key, in increasing order of the keys. -/
structure Groups where
  functions : List Aggregate
  entries : List (Record × List Value)
  deriving DecidableEq

namespace Groups

def empty (functions : List Aggregate) : Groups := ⟨functions, []⟩

def initialStates (g : Groups) : List Value := g.functions.map Aggregate.initial

def size (g : Groups) : Nat := g.entries.length

/-- Folds one value into each state, from left to right. Where a step fails the state is
    NULL from then on, those before it have been stepped and those behind it stay. -/
def stepStates : List Aggregate → List Value → List Value → Except Error Unit × List Value
  | f :: fs, v :: vs, state :: states =>
    match f.step v state with
    | .error e => (.error e, .null :: states)
    | .ok stepped =>
      let (outcome, tail) := stepStates fs vs states
      (outcome, stepped :: tail)
  | _, _, states => (.ok (), states)

/-- Changes the entry of a key in a list ordered by keys, or puts one for it in its place,
    changed from the given beginning. -/
def updateEntry {α β : Type} (key : Record) (initial : β) (change : β → α × β) :
    List (Record × β) → α × List (Record × β)
  | [] =>
    let (answer, changed) := change initial
    (answer, [(key, changed)])
  | (k, old) :: rest =>
    match compare key k with
    | .lt =>
      let (answer, changed) := change initial
      (answer, (key, changed) :: (k, old) :: rest)
    | .eq =>
      let (answer, changed) := change old
      (answer, (k, changed) :: rest)
    | .gt =>
      let (answer, tail) := updateEntry key initial change rest
      (answer, (k, old) :: tail)

/-- Folds the values of one row into the group of its key. A row has to have one value
    for each function; if a step fails, the group keeps what was folded. -/
def add (g : Groups) (key : Record) (values : List Value) : Except Error Unit × Groups :=
  if values.length = g.functions.length then
    let (outcome, entries) :=
      updateEntry key g.initialStates (stepStates g.functions values) g.entries
    (outcome, ⟨g.functions, entries⟩)
  else (.error (.arityMismatch g.functions.length values.length), g)

/-- The keys with the results of their groups, in increasing order. -/
def results (g : Groups) : List (Record × Record) := g.entries

/-- The results where the rows are one group even if there are none: then the initial
    states are its result, under the empty key. -/
def resultsOfOne (g : Groups) : List (Record × Record) :=
  if g.entries.isEmpty then [([], g.initialStates)] else g.results

end Groups

/-- Folds the first columns of every record of a stream, one by each function. -/
def summarize (functions : List Aggregate) (s : Stream) : Except Error Record := do
  let groups ← s.records.foldlM addRecord (Groups.empty functions)
  .ok ((groups.resultsOfOne.head?.map Prod.snd).getD [])
where
  /-- Folds as many values of a record as there are functions. -/
  addRecord (g : Groups) (record : Record) : Except Error Groups :=
    if record.length < functions.length then
      .error (.arityMismatch functions.length record.length)
    else
      match g.add [] (record.take functions.length) with
      | (.ok (), g) => .ok g
      | (.error e, _) => .error e

end StreamQuery
