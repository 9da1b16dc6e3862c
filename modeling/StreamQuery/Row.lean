import StreamQuery.Query

/-!
# Rows

What a select makes of each row or group that it reads: a record, and the values by which
ORDER BY sorts it. Sorting is stable, in ascending and in descending order alike.
-/

namespace StreamQuery

/-- A projected record with its sort keys. -/
structure Row where
  record : Record
  keys : List Value
  deriving DecidableEq

namespace Row

/-- The order of sort keys: the first pair that differs decides, reversed if its key
    descends. -/
def compareKeys : List Value → List Value → List Direction → Ordering
  | a :: as, b :: bs, d :: ds =>
    let first := match d with
      | .ascending => compare a b
      | .descending => compare b a
    first.then (compareKeys as bs ds)
  | _, _, _ => .eq

/-- The rows in the order of their sort keys; rows with equal keys keep their order. -/
def sort (directions : List Direction) (rows : List Row) : List Row :=
  rows.mergeSort fun a b => (compareKeys a.keys b.keys directions).isLE

end Row

end StreamQuery
