import Mathlib.Data.List.Basic
import StreamQuery.Proofs.ValueOrder
import StreamQuery.Row

/-!
# Sorting by keys

The order of sort keys is lexicographic: the first place at which two rows differ decides, in the
direction of that place. Of rows with one key for each direction it is total, and sorting by it is
stable. `KeysBefore` states the order without the comparison, and `StableSort` what it is for rows
to be sorted.
-/

namespace StreamQuery

/-! ## The order of keys -/

def Direction.Before : Direction → Value → Value → Prop
  | .ascending, a, b => a.Before b
  | .descending, a, b => b.Before a

/-- Keys come before others if, at the first place where they differ, theirs does. -/
inductive KeysBefore : List Direction → List Value → List Value → Prop where
  | here {d : Direction} {ds : List Direction} {a b : Value} {as bs : List Value} (before : d.Before a b) :
      KeysBefore (d :: ds) (a :: as) (b :: bs)
  | later {d : Direction} {ds : List Direction} {a : Value} {as bs : List Value} (rest : KeysBefore ds as bs) :
      KeysBefore (d :: ds) (a :: as) (a :: bs)

theorem Direction.Before.trans {d : Direction} {a b c : Value} (first : d.Before a b) (second : d.Before b c) :
    d.Before a c := by
  cases d with
  | ascending => exact Value.Before.trans first second
  | descending => exact Value.Before.trans second first

theorem Direction.trichotomy (d : Direction) (a b : Value) : d.Before a b ∨ a = b ∨ d.Before b a := by
  rcases Value.Before.trichotomy a b with less | same | greater
  · cases d with
    | ascending => exact .inl less
    | descending => exact .inr (.inr less)
  · exact .inr (.inl same)
  · cases d with
    | ascending => exact .inr (.inr greater)
    | descending => exact .inl greater

theorem KeysBefore.trans {ds : List Direction} {as bs cs : List Value} (first : KeysBefore ds as bs)
    (second : KeysBefore ds bs cs) : KeysBefore ds as cs := by
  induction first generalizing cs with
  | here before =>
    cases second with
    | here next => exact .here (before.trans next)
    | later _ => exact .here before
  | later rest ih =>
    cases second with
    | here next => exact .here next
    | later others => exact .later (ih others)

/-- Of two different lists of keys, one for each direction, one comes before the other. -/
theorem keys_trichotomy {ds : List Direction} {as bs : List Value} (left : as.length = ds.length)
    (right : bs.length = ds.length) : KeysBefore ds as bs ∨ as = bs ∨ KeysBefore ds bs as := by
  induction ds generalizing as bs with
  | nil =>
    rw [List.length_eq_zero_iff.mp left, List.length_eq_zero_iff.mp right]
    exact .inr (.inl rfl)
  | cons d ds ih =>
    obtain ⟨a, as, rfl⟩ := List.exists_cons_of_length_eq_add_one left
    obtain ⟨b, bs, rfl⟩ := List.exists_cons_of_length_eq_add_one right
    rcases d.trichotomy a b with before | rfl | behind
    · exact .inl (.here before)
    · rcases ih (Nat.succ.inj left) (Nat.succ.inj right) with before | rfl | behind
      · exact .inl (.later before)
      · exact .inr (.inl rfl)
      · exact .inr (.inr (.later behind))
    · exact .inr (.inr (.here behind))

theorem keys_cons_iff {d : Direction} {ds : List Direction} {a b : Value} {as bs : List Value} :
    (a :: as = b :: bs ∨ KeysBefore (d :: ds) (a :: as) (b :: bs)) ↔
      d.Before a b ∨ a = b ∧ (as = bs ∨ KeysBefore ds as bs) := by
  constructor
  · intro least
    rcases least with same | before
    · cases same
      exact .inr ⟨rfl, .inl rfl⟩
    · cases before with
      | here before => exact .inl before
      | later rest => exact .inr ⟨rfl, .inr rest⟩
  · rintro (before | ⟨rfl, rfl | later⟩)
    · exact .inr (.here before)
    · exact .inl rfl
    · exact .inr (.later later)

/-- The comparison of keys puts those first that come before others or are the same. -/
theorem compareKeys_isLE {ds : List Direction} {as bs : List Value} (left : as.length = ds.length)
    (right : bs.length = ds.length) :
    (Row.compareKeys as bs ds).isLE = true ↔ as = bs ∨ KeysBefore ds as bs := by
  induction ds generalizing as bs with
  | nil =>
    rw [List.length_eq_zero_iff.mp left, List.length_eq_zero_iff.mp right]
    exact iff_of_true rfl (.inl rfl)
  | cons d ds ih =>
    obtain ⟨a, as, rfl⟩ := List.exists_cons_of_length_eq_add_one left
    obtain ⟨b, bs, rfl⟩ := List.exists_cons_of_length_eq_add_one right
    have rest := ih (Nat.succ.inj left) (Nat.succ.inj right)
    rw [keys_cons_iff, ← rest]
    cases d with
    | ascending =>
      show ((compare a b).then (Row.compareKeys as bs ds)).isLE = true ↔ a.Before b ∨ _
      rw [Ordering.isLE_then_iff_or, Std.LawfulEqCmp.compare_eq_iff_eq, compare_eq_lt]
    | descending =>
      show ((compare b a).then (Row.compareKeys as bs ds)).isLE = true ↔ b.Before a ∨ _
      rw [Ordering.isLE_then_iff_or, Std.LawfulEqCmp.compare_eq_iff_eq, compare_eq_lt, eq_comm (a := b)]

/-! ## Stable sorting -/

/-- Rows sorted by their keys: the same rows, each with keys that are those of every row behind it
    or come before them, and rows with the same keys in the order that they had. -/
structure StableSort (ds : List Direction) (rows sorted : List Row) : Prop where
  permuted : sorted.Perm rows
  ordered : sorted.Pairwise fun a b => a.keys = b.keys ∨ KeysBefore ds a.keys b.keys
  stable : ∀ keys, sorted.filter (·.keys = keys) = rows.filter (·.keys = keys)

/-- Sorting keeps the order of elements any two of which may stand in either order. -/
theorem filter_mergeSort {α : Type} {le : α → α → Bool} (trans : ∀ a b c, le a b → le b c → le a c)
    (total : ∀ a b, le a b || le b a) {q : α → Bool} (tied : ∀ a b, q a → q b → le a b) (l : List α) :
    (l.mergeSort le).filter q = l.filter q := by
  have ordered : (l.filter q).Pairwise (le · ·) := by
    refine List.pairwise_of_forall_mem_list fun a first b second => ?_
    exact tied a b (List.mem_filter.mp first).2 (List.mem_filter.mp second).2
  have kept : (l.filter q).Sublist (l.mergeSort le) := List.sublist_mergeSort trans total ordered List.filter_sublist
  have within : (l.filter q).Sublist ((l.mergeSort le).filter q) := by simpa using kept.filter q
  exact (within.eq_of_length ((List.mergeSort_perm l le).filter q).length_eq.symm).symm

/-- A row with one key for each direction. -/
abbrev KeyedRow (ds : List Direction) := { row : Row // row.keys.length = ds.length }

def KeyedRow.le {ds : List Direction} (a b : KeyedRow ds) : Bool :=
  (Row.compareKeys a.1.keys b.1.keys ds).isLE

theorem KeyedRow.le_iff {ds : List Direction} {a b : KeyedRow ds} :
    a.le b = true ↔ a.1.keys = b.1.keys ∨ KeysBefore ds a.1.keys b.1.keys :=
  compareKeys_isLE a.2 b.2

theorem KeyedRow.le_trans {ds : List Direction} (a b c : KeyedRow ds) (first : a.le b = true) (second : b.le c = true) :
    a.le c = true := by
  rw [le_iff] at first second ⊢
  rcases first with same | before
  · rwa [same]
  · rcases second with same | next
    · exact .inr (same ▸ before)
    · exact .inr (before.trans next)

theorem KeyedRow.le_total {ds : List Direction} (a b : KeyedRow ds) : (a.le b || b.le a) = true := by
  rw [Bool.or_eq_true, le_iff, le_iff]
  rcases keys_trichotomy a.2 b.2 with before | same | behind
  · exact .inl (.inr before)
  · exact .inl (.inl same)
  · exact .inr (.inr behind)

theorem stableSort_sort {ds : List Direction} {rows : List Row} (width : ∀ row ∈ rows, row.keys.length = ds.length) :
    StableSort ds rows (Row.sort ds rows) := by
  -- The comparison is total only among rows with a key for each direction, so it is such rows that
  -- are sorted.
  let keyed : List (KeyedRow ds) := rows.attachWith _ width
  have values : keyed.map Subtype.val = rows := List.attachWith_map_subtype_val width
  have sorted : Row.sort ds rows = (keyed.mergeSort KeyedRow.le).map Subtype.val := by
    have mapped : (keyed.mergeSort KeyedRow.le).map Subtype.val = Row.sort ds (keyed.map Subtype.val) :=
      List.map_mergeSort fun _ _ _ _ => rfl
    rw [mapped, values]
  refine ⟨List.mergeSort_perm _ _, ?_, fun keys => ?_⟩
  · rw [sorted, List.pairwise_map]
    refine (List.pairwise_mergeSort KeyedRow.le_trans KeyedRow.le_total keyed).imp fun before => ?_
    exact KeyedRow.le_iff.mp before
  · have tied : ∀ a b : KeyedRow ds, decide (a.1.keys = keys) → decide (b.1.keys = keys) → a.le b := by
      intro a b first second
      refine KeyedRow.le_iff.mpr (.inl ?_)
      rw [of_decide_eq_true first, of_decide_eq_true second]
    have kept := filter_mergeSort KeyedRow.le_trans KeyedRow.le_total tied keyed
    rw [sorted, List.filter_map, ← values, List.filter_map]
    exact congrArg _ kept

end StreamQuery
