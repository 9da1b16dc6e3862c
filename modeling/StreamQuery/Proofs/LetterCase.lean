import StreamQuery.Aggregate
import StreamQuery.Proofs.CharClasses
import StreamQuery.Token

/-!
# Letter case

Words are compared by their full lower case. Where the word that is compared with consists of
plain letters, no other letters than those of its own and their capitals have that lower case. Two
letters outside ASCII have a lower case that begins in ASCII: the Kelvin sign, whose lower case is
`k`, and the capital I with a dot above, whose lower case has the dot behind the `i`. One rule of
Unicode looks at the neighbours of a character, that of the capital sigma, whose lower case at the
end of a word is the final sigma; what is said of lower cases holds for either one at every place
(`LowerCaseOf`).
-/

namespace StreamQuery

namespace Text

/-- A character of ASCII that is the lower case of no character outside. -/
def IsPlain (c : Char) : Prop := 0 < c.toNat ∧ c.toNat < 128 ∧ c ≠ 'k'

instance (c : Char) : Decidable (IsPlain c) := inferInstanceAs (Decidable (_ ∧ _))

theorem lowerChar_ascii {c : Char} (ascii : c.toNat < 128) : lowerChar c = [c.toLower] := by
  have each : ∀ n < 128, lowerChar (Char.ofNat n) = [(Char.ofNat n).toLower] := by decide +kernel
  exact forall_ascii (p := fun c => lowerChar c = [c.toLower]) each ascii

theorem lowerCase_ascii {cs : List Char} (ascii : ∀ c ∈ cs, c.toNat < 128) :
    cs.flatMap lowerChar = cs.map Char.toLower := by
  induction cs with
  | nil => rfl
  | cons c rest ih =>
    rw [List.forall_mem_cons] at ascii
    rw [List.flatMap_cons, lowerChar_ascii ascii.1, ih ascii.2, List.map_cons, List.singleton_append]

/-- The small letters of the capitals outside ASCII are outside too, but for one. -/
theorem shift_outside : ∀ run ∈ capitalRuns, run.last < 128 ∨
    128 ≤ run.first + run.shift ∨ run.first = run.last ∧ run.first + run.shift = 'k'.toNat := by
  decide +kernel

theorem toNat_ofNat (n : Nat) : (Char.ofNat n).toNat = n ∨ (Char.ofNat n).toNat = 0 := by
  by_cases valid : n.isValidChar
  · rw [Char.ofNat, dif_pos valid]
    exact .inl rfl
  · rw [Char.ofNat, dif_neg valid]
    exact .inr rfl

theorem not_plain_ofNat {n : Nat} (outside : 128 ≤ n) : ¬ IsPlain (Char.ofNat n) := by
  rintro ⟨positive, ascii, _⟩
  rcases toNat_ofNat n with same | zero <;> omega

/-- The lower case of a character outside ASCII is not plain as a whole. -/
theorem lowerChar_outside {c : Char} (outside : 128 ≤ c.toNat) : ∃ d ∈ lowerChar c, ¬ IsPlain d := by
  unfold lowerChar
  by_cases dotted : c = dottedCapitalI
  · rw [if_pos dotted]
    exact ⟨'\u0307', by simp, by decide⟩
  rw [if_neg dotted]
  cases found : capitalRuns.find? (·.covers c.toNat) with
  | none => exact ⟨c, List.mem_singleton_self c, fun plain => Nat.not_lt.mpr outside plain.2.1⟩
  | some run =>
    refine ⟨_, List.mem_singleton_self _, ?_⟩
    have covers := List.find?_some found
    simp only [CapitalRun.covers, Bool.and_eq_true, decide_eq_true_eq] at covers
    obtain ⟨⟨low, high⟩, _⟩ := covers
    rcases shift_outside run (List.mem_of_find?_eq_some found) with ascii | far | ⟨single, kelvin⟩
    · omega
    · exact not_plain_ofNat (by omega)
    · rw [show c.toNat + run.shift = 'k'.toNat by omega]
      decide

/-- The lower cases of some characters: each has its own, and a capital sigma may be a final one. -/
inductive LowerCaseOf : List Char → List Char → Prop where
  | nothing : LowerCaseOf [] []
  | char {c : Char} {cs lower : List Char} (rest : LowerCaseOf cs lower) :
      LowerCaseOf (c :: cs) (lowerChar c ++ lower)
  | finalSigma {cs lower : List Char} (rest : LowerCaseOf cs lower) : LowerCaseOf ('Σ' :: cs) ('ς' :: lower)

theorem lowerCaseOf_flatMap (cs : List Char) : LowerCaseOf cs (cs.flatMap lowerChar) := by
  induction cs with
  | nil => exact .nothing
  | cons c cs ih => exact .char ih

/-- Any lower case of a character outside ASCII has a character that is not plain. -/
theorem LowerCaseOf.not_plain {c : Char} {cs lower : List Char} (lowered : LowerCaseOf (c :: cs) lower)
    (outside : 128 ≤ c.toNat) : ∃ d ∈ lower, ¬ IsPlain d := by
  cases lowered with
  | char rest =>
    obtain ⟨d, member, foreign⟩ := lowerChar_outside outside
    exact ⟨d, List.mem_append_left _ member, foreign⟩
  | finalSigma rest => exact ⟨'ς', List.mem_cons_self, by decide⟩

theorem LowerCaseOf.of_ascii {c : Char} {cs lower : List Char} (lowered : LowerCaseOf (c :: cs) lower)
    (ascii : c.toNat < 128) : ∃ rest, LowerCaseOf cs rest ∧ lower = c.toLower :: rest := by
  cases lowered with
  | @char _ _ rest others =>
    refine ⟨rest, others, ?_⟩
    rw [lowerChar_ascii ascii]
    rfl
  | finalSigma rest => exact absurd ascii (by decide)

/-- A lower case of a word is a plain one only if it is so by the capitals A to Z alone, and then it
    is the only one. -/
theorem LowerCaseOf.eq_plain {cs lower name : List Char} (lowered : LowerCaseOf cs lower)
    (plain : ∀ c ∈ name, IsPlain c) : lower = name ↔ cs.map Char.toLower = name := by
  induction cs generalizing lower name with
  | nil =>
    cases lowered
    rfl
  | cons c cs ih =>
    by_cases ascii : c.toNat < 128
    · obtain ⟨rest, others, rfl⟩ := lowered.of_ascii ascii
      cases name with
      | nil => simp
      | cons d name =>
        rw [List.forall_mem_cons] at plain
        rw [List.map_cons, List.cons.injEq, List.cons.injEq, ih others plain.2]
    · constructor
      · rintro rfl
        obtain ⟨d, member, foreign⟩ := lowered.not_plain (Nat.not_lt.mp ascii)
        exact absurd (plain d member) foreign
      · rintro rfl
        have same : c.toLower = c := toLower_outside ascii
        have small := (plain c.toLower List.mem_cons_self).2.1
        rw [same] at small
        exact absurd small ascii

/-- The lower case of a word is a plain one only if it is so by the capitals A to Z alone. -/
theorem lower_eq_plain {cs name : List Char} (plain : ∀ c ∈ name, IsPlain c) :
    cs.flatMap lowerChar = name ↔ cs.map Char.toLower = name :=
  (lowerCaseOf_flatMap cs).eq_plain plain

end Text

theorem aggregate_plain (k : AggregateKind) : ∀ c ∈ k.name.toList, Text.IsPlain c := by
  have all : k.name.toList.all (fun c => decide (Text.IsPlain c)) = true := by
    cases k <;> decide
  exact fun c member => of_decide_eq_true (List.all_eq_true.mp all c member)

/-- A call names a kind of aggregate function by its name in any letter case. -/
theorem ofCall?_eq_some {word : String} {k : AggregateKind} :
    Aggregate.ofCall? word = some k ↔ Text.lowerAscii word = k.name := by
  have lower : Text.lowerCase word = k.name ↔ Text.lowerAscii word = k.name := by
    unfold Text.lowerCase Text.lowerAscii
    rw [← String.toList_inj, ← String.toList_inj, String.toList_ofList, String.toList_ofList]
    exact Text.lower_eq_plain (aggregate_plain k)
  rw [← lower]
  unfold Aggregate.ofCall?
  constructor
  · intro found
    split at found
    case h_1 same => cases found; exact same
    case h_2 same => cases found; exact same
    case h_3 => cases found
  · intro same
    rw [same]
    cases k with
    | boolOr => rfl
    | sum => rfl

end StreamQuery
