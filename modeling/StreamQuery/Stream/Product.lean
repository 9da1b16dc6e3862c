import StreamQuery.Stream

/-!
# Cross joins

The cross join of streams has one record for each choice of a record from every stream,
the choices from later streams changing faster. Its columns are those of the streams,
named after the place of their stream.
-/

namespace StreamQuery

/-- The name that a column takes in a cross join: `$`, the place of its stream counted
    from zero, a dot and its own name. -/
def joinedName (index : Nat) (name : String) : String :=
  "$" ++ toString index ++ "." ++ name

def joinRecords (records : List Record) : Record := records.flatten

/-- Every choice of one record from each list; the choice from the last list changes
    fastest. -/
def choices : List (List Record) → List (List Record)
  | [] => [[]]
  | records :: rest =>
    let tails := choices rest
    records.flatMap fun r => tails.map (r :: ·)

namespace Stream

def joinedColumns (s : Stream) (index : Nat) : List Column :=
  s.header.map fun c => c.renamed (joinedName index c.name)

/-- The cross join of some streams. That of no streams has one empty record. -/
def crossJoin (streams : List Stream) : Stream where
  header := streams.zipIdx.flatMap fun (s, index) => s.joinedColumns index
  records := (choices (streams.map Stream.records)).map joinRecords

end Stream

end StreamQuery
