import Mathlib.Algebra.BigOperators.Group.List.Basic
import Mathlib.Data.List.Forall2
import StreamQuery.Stream.Product

/-!
# The order of a cross join

The records of a cross join are numbered by the places of the records that they are joined from:
these are the digits of the number of the joined record, in the mixed radix of the sizes of the
streams. From that follow how many records there are and that none is lost or made twice. Joining
some of the streams first, those in front or those behind, makes the same records.
-/

namespace StreamQuery

/-! ## Mixed radices -/

/-- The number that digits stand for in a mixed radix. The last digit counts ones, and every other
    digit as many as there are numbers with the digits behind it. -/
def digitsValue : List Nat → List Nat → Nat
  | _ :: radix, d :: digits => d * radix.prod + digitsValue radix digits
  | _, _ => 0

/-- The digits of a number in a mixed radix: one for each base, and below it. -/
structure IsDigits (radix : List Nat) (number : Nat) (digits : List Nat) : Prop where
  below : List.Forall₂ (· < ·) digits radix
  value : digitsValue radix digits = number

theorem digitsValue_lt {radix digits : List Nat} (below : List.Forall₂ (· < ·) digits radix) :
    digitsValue radix digits < radix.prod := by
  induction below with
  | nil => decide
  | @cons d base digits radix less _ ih =>
    have room : d * radix.prod + radix.prod ≤ base * radix.prod := by
      rw [← Nat.succ_mul]
      exact Nat.mul_le_mul_right _ less
    rw [digitsValue, List.prod_cons]
    omega

/-- Every number below the product of the bases has digits, and no others. -/
theorem existsUnique_digits {radix : List Nat} :
    ∀ {number}, number < radix.prod → ∃! digits, IsDigits radix number digits := by
  induction radix with
  | nil =>
    intro number less
    obtain rfl : number = 0 := by simpa using less
    exact ⟨[], ⟨.nil, rfl⟩, fun digits other => List.forall₂_nil_right_iff.mp other.below⟩
  | cons base radix ih =>
    intro number less
    rw [List.prod_cons] at less
    have pos : 0 < radix.prod := Nat.pos_of_mul_pos_left (by omega : 0 < base * radix.prod)
    obtain ⟨rest, isRest, unique⟩ := ih (Nat.mod_lt number pos)
    -- The digits behind the first make less than one of its units: it is the quotient, they the remainder.
    refine ⟨number / radix.prod :: rest, ⟨.cons ?_ isRest.below, ?_⟩, ?_⟩
    · exact (Nat.div_lt_iff_lt_mul pos).mpr less
    · rw [digitsValue, isRest.value, Nat.mul_comm]
      exact Nat.div_add_mod number radix.prod
    · rintro digits ⟨below, value⟩
      cases below with
      | @cons d _ others _ _ below =>
        have small := digitsValue_lt below
        rw [digitsValue, Nat.mul_comm] at value
        subst value
        rw [Nat.mul_add_div pos, Nat.div_eq_of_lt small, Nat.add_zero]
        refine congrArg _ (unique others ⟨below, ?_⟩)
        rw [Nat.mul_add_mod, Nat.mod_eq_of_lt small]

/-! ## Choices by their numbers -/

/-- A choice that takes from each list the record at the place that a digit says. -/
def TakenAt (lists : List (List Record)) (digits : List Nat) (choice : List Record) : Prop :=
  List.Forall₂ (fun place record => place.1[place.2]? = some record) (lists.zip digits) choice

theorem length_choices (lists : List (List Record)) :
    (choices lists).length = (lists.map List.length).prod := by
  induction lists with
  | nil => rfl
  | cons records rest ih =>
    simp only [choices, List.length_flatMap, List.length_map, List.map_cons, List.prod_cons, ih]
    rw [List.map_const', List.sum_replicate_nat]

/-- In a list of blocks of one length, a place is that of a block and a place in the block. -/
theorem getElem?_flatMap_block {α β : Type} {f : α → List β} {n : Nat} (block : ∀ a, (f a).length = n) {j : Nat}
    (inside : j < n) (l : List α) (i : Nat) : (l.flatMap f)[i * n + j]? = l[i]?.bind fun a => (f a)[j]? := by
  induction l generalizing i with
  | nil => rfl
  | cons a rest ih =>
    rw [List.flatMap_cons]
    cases i with
    | zero =>
      rw [Nat.zero_mul, Nat.zero_add, List.getElem?_append_left (by rw [block]; exact inside)]
      rfl
    | succ i =>
      have place : (i + 1) * n + j = n + (i * n + j) := by
        rw [Nat.succ_mul]
        omega
      rw [place, List.getElem?_append_right (by rw [block]; omega), block, Nat.add_sub_cancel_left, ih]
      rfl

theorem choice_at {lists : List (List Record)} {digits : List Nat}
    (below : List.Forall₂ (· < ·) digits (lists.map List.length)) :
    ∃ choice, TakenAt lists digits choice ∧
      (choices lists)[digitsValue (lists.map List.length) digits]? = some choice := by
  induction lists generalizing digits with
  | nil =>
    obtain rfl := List.forall₂_nil_right_iff.mp below
    exact ⟨[], .nil, rfl⟩
  | cons records rest ih =>
    obtain ⟨d, others, less, later, rfl⟩ := List.forall₂_cons_right_iff.mp below
    obtain ⟨choice, taken, place⟩ := ih later
    have small := digitsValue_lt later
    have record : records[d]? = some records[d] := List.getElem?_eq_getElem less
    refine ⟨records[d] :: choice, .cons record taken, ?_⟩
    have block : ∀ r : Record, ((choices rest).map (r :: ·)).length = (rest.map List.length).prod := by
      intro r
      rw [List.length_map, length_choices]
    rw [List.map_cons, digitsValue, choices, getElem?_flatMap_block block small, record, Option.bind_some,
      List.getElem?_map, place]
    rfl

/-! ## Joining some streams first -/

theorem choices_append (front back : List (List Record)) :
    choices (front ++ back) = (choices front).flatMap fun choice => (choices back).map (choice ++ ·) := by
  induction front with
  | nil => simp [choices]
  | cons records rest ih =>
    simp only [List.cons_append, choices, ih, List.map_flatMap, List.flatMap_assoc, List.flatMap_map, List.map_map]
    rfl

/-- The records of a join from those of two parts of it. -/
theorem records_crossJoin_append (front back : List Stream) :
    (Stream.crossJoin (front ++ back)).records =
      (Stream.crossJoin front).records.flatMap fun r => (Stream.crossJoin back).records.map (r ++ ·) := by
  simp only [Stream.crossJoin, List.map_append, choices_append, List.map_flatMap, List.flatMap_map, List.map_map]
  refine List.flatMap_congr fun choice _ => List.map_congr_left fun other _ => ?_
  exact List.flatten_append

theorem records_crossJoin_singleton (s : Stream) : (Stream.crossJoin [s]).records = s.records := by
  simp [Stream.crossJoin, choices, joinRecords, List.map_flatMap]

/-- A column as it stands in the header of a cross join: under a joined name, with its type. -/
def IsJoinedColumn (c joined : Column) : Prop :=
  joined.datatype = c.datatype ∧ ∃ index, joined.name = joinedName index c.name

theorem columns_crossJoin (streams : List Stream) :
    List.Forall₂ IsJoinedColumn (streams.flatMap Stream.header) (Stream.crossJoin streams).header := by
  have columns : ∀ index, List.Forall₂ IsJoinedColumn (streams.flatMap Stream.header)
      ((streams.zipIdx index).flatMap fun place => place.1.joinedColumns place.2) := by
    induction streams with
    | nil => exact fun _ => .nil
    | cons s rest ih =>
      intro index
      rw [List.zipIdx_cons, List.flatMap_cons, List.flatMap_cons]
      refine List.rel_append ?_ (ih (index + 1))
      exact List.forall₂_map_right_iff.mpr (List.forall₂_same.mpr fun c _ => ⟨rfl, index, rfl⟩)
  exact columns 0

/-- The cross join enumerates the product of its streams. It has as many records as the product of
    the sizes; the record with a number is the concatenation of the records at the digits of the
    number, in the mixed radix of the sizes; its columns are those of the streams in order, with
    their types. Joining the streams in front first, or those behind, makes the same records. -/
theorem crossJoin_enumerates (streams : List Stream) :
    (Stream.crossJoin streams).size = (streams.map Stream.size).prod ∧
      (∀ number < (Stream.crossJoin streams).size, ∃! digits, IsDigits (streams.map Stream.size) number digits) ∧
      (∀ number digits, IsDigits (streams.map Stream.size) number digits →
        ∃ choice, TakenAt (streams.map Stream.records) digits choice ∧
          (Stream.crossJoin streams).records[number]? = some choice.flatten) ∧
      List.Forall₂ IsJoinedColumn (streams.flatMap Stream.header) (Stream.crossJoin streams).header ∧
      ∀ front back, streams = front ++ back →
        (Stream.crossJoin (Stream.crossJoin front :: back)).records = (Stream.crossJoin streams).records ∧
        (Stream.crossJoin (front ++ [Stream.crossJoin back])).records = (Stream.crossJoin streams).records := by
  have sizes : (streams.map Stream.records).map List.length = streams.map Stream.size := List.map_map
  have count : (Stream.crossJoin streams).size = (streams.map Stream.size).prod := by
    rw [Stream.size, Stream.crossJoin, List.length_map, length_choices, sizes]
  refine ⟨count, fun number less => existsUnique_digits (count ▸ less), ?_, columns_crossJoin streams, ?_⟩
  · rintro number digits ⟨below, rfl⟩
    rw [← sizes] at below ⊢
    obtain ⟨choice, taken, place⟩ := choice_at below
    refine ⟨choice, taken, ?_⟩
    rw [Stream.crossJoin, List.getElem?_map, place]
    rfl
  · rintro front back rfl
    constructor
    · rw [← List.singleton_append, records_crossJoin_append, records_crossJoin_singleton, records_crossJoin_append]
    · rw [records_crossJoin_append, records_crossJoin_singleton, records_crossJoin_append]

example : (Stream.crossJoin []).records = [[]] := rfl

/-- The theorem at streams of two, one and three records, of which one is empty, for the fifth
    record of their join. -/
theorem crossJoin_enumerates_fifth :
    let first : Stream := ⟨[⟨"a", .int⟩], [[.int 1], [.int 2]]⟩
    let second : Stream := ⟨[], [[]]⟩
    let third : Stream := ⟨[⟨"a", .bool⟩, ⟨"b", .int⟩],
      [[.bool true, .null], [.bool false, .int 5], [.null, .int 6]]⟩
    let joined : Stream := Stream.crossJoin [first, second, third]
    4 < joined.size ∧ IsDigits [2, 1, 3] 4 [1, 0, 1] ∧ [first, second, third] = [first] ++ [second, third] ∧
      (∃! digits, IsDigits [2, 1, 3] 4 digits) ∧ joined.records[4]? = some [.int 2, .bool false, .int 5] ∧
      (Stream.crossJoin [first, Stream.crossJoin [second, third]]).records = joined.records := by
  intro first second third joined
  have less : 4 < joined.size := by decide
  have digits : IsDigits [2, 1, 3] 4 [1, 0, 1] :=
    ⟨.cons (by decide) (.cons (by decide) (.cons (by decide) .nil)), rfl⟩
  obtain ⟨_, exist, records, _, parts⟩ := crossJoin_enumerates [first, second, third]
  obtain ⟨choice, taken, place⟩ := records 4 [1, 0, 1] digits
  obtain rfl : choice = [[.int 2], [], [.bool false, .int 5]] := by
    rcases taken with _ | ⟨⟨⟩, _ | ⟨⟨⟩, _ | ⟨⟨⟩, ⟨⟩⟩⟩⟩
    rfl
  exact ⟨less, digits, rfl, exist 4 less, place, (parts [first] [second, third] rfl).2⟩

end StreamQuery
