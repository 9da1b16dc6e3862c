import StreamQuery.Stream

/-!
# Unions

The union of streams has all their records, one stream behind the other, with
duplicates. The first stream gives the header, and the others have to be as wide.
-/

namespace StreamQuery.Stream

/-- Refuses a stream whose header has another width. -/
def checkWidth (width : Nat) (s : Stream) : Except Error Unit :=
  if s.header.length = width then .ok () else .error (.arityMismatch width s.header.length)

/-- All records of the streams, under the header of the first. -/
def unionAll : List Stream → Except Error Stream
  | [] => .ok empty
  | s :: rest => do
    rest.forM (checkWidth s.header.length)
    .ok ⟨s.header, s.records ++ rest.flatMap Stream.records⟩

end StreamQuery.Stream
