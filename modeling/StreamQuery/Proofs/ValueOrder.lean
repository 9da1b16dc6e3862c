import StreamQuery.Value

/-!
# The order of values

FALSE and TRUE come before the integers, and those before NULL; records are ordered like words. The
comparison finds this order: values are compared by the rank of their kind first and then, within
one kind, by an integer. So it is total, and what is equal in it is the same.
-/

namespace StreamQuery

/-- The integer by which a value is compared with others of its kind. -/
def Value.payload : Value → Int
  | bool truth => if truth then 1 else 0
  | int number => number
  | null => 0

theorem compare_eq (a b : Value) :
    compare a b = (compare a.rank b.rank).then (compare a.payload b.payload) := by
  cases a with
  | bool x =>
    cases b with
    | bool y => cases x <;> cases y <;> rfl
    | int n => rfl
    | null => rfl
  | int m =>
    cases b with
    | bool y => rfl
    | int n => rfl
    | null => rfl
  | null =>
    cases b with
    | bool y => rfl
    | int n => rfl
    | null => rfl

theorem compare_lex :
    (compare : Value → Value → Ordering) =
      compareLex (compareOn Value.rank) (compareOn Value.payload) := by
  funext a b
  exact compare_eq a b

instance : Std.TransOrd Value := by
  unfold Std.TransOrd
  rw [compare_lex]
  infer_instance

theorem eq_of_compare {a b : Value} (h : compare a b = .eq) : a = b := by
  rw [compare_eq, Ordering.then_eq_eq] at h
  have rank : a.rank = b.rank := Std.LawfulEqOrd.eq_of_compare h.1
  have payload : a.payload = b.payload := Std.LawfulEqOrd.eq_of_compare h.2
  cases a with
  | bool x =>
    cases b with
    | bool y => cases x <;> cases y <;> first | rfl | cases payload
    | int n => cases rank
    | null => cases rank
  | int m =>
    cases b with
    | bool y => cases rank
    | int n => rw [show m = n from payload]
    | null => cases rank
  | null =>
    cases b with
    | bool y => cases rank
    | int n => cases rank
    | null => rfl

instance : Std.LawfulEqOrd Value where
  eq_of_compare := eq_of_compare

/-- The order of values: FALSE, TRUE, the integers by size, and NULL. -/
inductive Value.Before : Value → Value → Prop where
  | truths : Before (bool false) (bool true)
  | truthInt (truth : Bool) (number : Int) : Before (bool truth) (int number)
  | truthNull (truth : Bool) : Before (bool truth) null
  | ints {m n : Int} (less : m < n) : Before (int m) (int n)
  | intNull (number : Int) : Before (int number) null

theorem compare_eq_lt {a b : Value} : compare a b = .lt ↔ a.Before b := by
  constructor
  · intro less
    match a, b, less with
    | .bool false, .bool true, _ => exact .truths
    | .bool x, .int n, _ => exact .truthInt x n
    | .bool x, .null, _ => exact .truthNull x
    | .int m, .int n, less => exact .ints (Int.compare_eq_lt.mp less)
    | .int m, .null, _ => exact .intNull m
  · intro before
    cases before with
    | ints less => exact Int.compare_eq_lt.mpr less
    | truths | truthInt | truthNull | intNull => rfl

theorem Value.Before.trans {a b c : Value} (first : a.Before b) (second : b.Before c) : a.Before c := by
  rw [← compare_eq_lt] at first second ⊢
  exact Std.TransCmp.lt_trans first second

theorem Value.Before.trichotomy (a b : Value) : a.Before b ∨ a = b ∨ b.Before a := by
  cases order : compare a b with
  | lt => exact .inl (compare_eq_lt.mp order)
  | eq => exact .inr (.inl (eq_of_compare order))
  | gt => exact .inr (.inr (compare_eq_lt.mp (Std.OrientedCmp.gt_iff_lt.mp order)))

/-- Records are ordered like words, by the first place where they differ. -/
abbrev Record.Before : Record → Record → Prop := List.Lex Value.Before

theorem compare_record_eq_lt {a b : Record} : compare a b = .lt ↔ Record.Before a b := by
  induction a generalizing b with
  | nil =>
    cases b with
    | nil => exact iff_of_false nofun nofun
    | cons w b => exact iff_of_true rfl .nil
  | cons v a ih =>
    cases b with
    | nil => exact iff_of_false nofun nofun
    | cons w b =>
      have first : compare (v :: a) (w :: b) = (compare v w).then (compare a b) := List.compareLex_cons_cons
      rw [first, Ordering.then_eq_lt, Std.LawfulEqCmp.compare_eq_iff_eq, compare_eq_lt, ih]
      exact List.cons_lex_cons_iff.symm

/-- Records in increasing order, each before the next. -/
def Ascending (records : List Record) : Prop := records.Pairwise Record.Before

theorem not_before {a b : Record} (before : Record.Before a b) : ¬ Record.Before b a := by
  rw [← compare_record_eq_lt] at before ⊢
  exact Std.OrientedCmp.not_lt_of_lt before

theorem ne_of_before {a b : Record} (before : Record.Before a b) : a ≠ b := by
  rintro rfl
  exact not_before before before

theorem ascending_nodup {records : List Record} (h : Ascending records) : records.Nodup := h.imp ne_of_before

theorem ascending_unique {as bs : List Record} (left : Ascending as) (right : Ascending bs)
    (same : ∀ r, r ∈ as ↔ r ∈ bs) : as = bs := by
  have perm : as.Perm bs :=
    (List.perm_ext_iff_of_nodup (ascending_nodup left) (ascending_nodup right)).mpr (fun r => same r)
  exact perm.eq_of_pairwise (fun a b _ _ less greater => absurd greater (not_before less)) left right

end StreamQuery
