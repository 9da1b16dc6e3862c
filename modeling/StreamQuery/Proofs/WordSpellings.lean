import StreamQuery.Aggregate.Fold
import StreamQuery.Proofs.Lexing

/-!
# Spellings of keywords and functions

Keywords and aggregate functions are found by the lower case of a word. That is the full lower case
of Unicode, where several characters have a lower case that is, or begins with, a letter of ASCII;
yet no word is found by way of those: what is found is spelled by the letters of its own name, in any
case, whether a capital sigma in the word becomes a final one or not. So a call that is read names a
function that can be found by its name.
-/

namespace StreamQuery

open Text

theorem lowerAscii_eq_iff {one other : String} :
    lowerAscii one = lowerAscii other ↔ one.toList.map Char.toLower = other.toList.map Char.toLower := by
  unfold lowerAscii
  exact ⟨fun same => String.ofList_injective same, congrArg String.ofList⟩

theorem lowerAscii_kind (k : AggregateKind) : lowerAscii k.name = k.name := by
  cases k <;> decide

theorem ofWord?_eq_some {word : String} {k : Keyword} :
    Keyword.ofWord? word = some k ↔ lowerAscii word = lowerAscii k.spelling := by
  rw [lowerAscii_eq_iff, ← String.ofList_toList (s := word)]
  constructor
  · intro found
    rw [String.toList_ofList]
    exact spelled_of_ofWord? found
  · intro spelled
    rw [String.toList_ofList] at spelled
    exact ofWord?_of_spelled spelled

/-- The function that is found by a name has its letters, in any case, and the first one that has them
    is the only one. -/
theorem named?_eq_some {name : String} {f : Aggregate} :
    Aggregate.named? name = some f ↔ lowerAscii f.name = lowerAscii name := by
  unfold Aggregate.named?
  constructor
  · intro found
    have same := List.find?_some found
    exact beq_iff_eq.mp same
  · intro same
    rw [← same]
    cases f <;> rfl

/-- The names of the functions differ, also up to case, and each is that of a kind. -/
theorem named?_kind {name : String} {k : AggregateKind} :
    (∃ f, Aggregate.named? name = some f ∧ f.name = k.name) ↔ lowerAscii name = lowerAscii k.name := by
  constructor
  · rintro ⟨f, found, same⟩
    rw [← same, named?_eq_some.mp found]
  · intro letters
    exact ⟨k.builtin, named?_eq_some.mpr (by rw [k.name_builtin, letters]), k.name_builtin⟩

/-- Keywords and functions have no spelling outside ASCII. A word is a keyword if and only if it is
    the text of the keyword up to the case of the letters A to Z. A call names a kind of function if and
    only if a function with the name of that kind is found by the word, and if and only if the word is
    that name up to the case of those letters. And the lower cases of a word are the lower case of a
    keyword or the name of a kind in no other case, whether a capital sigma in it becomes a final one or
    not. -/
theorem spelled_in_ascii (word : String) :
    (∀ k : Keyword, Keyword.ofWord? word = some k ↔ lowerAscii word = lowerAscii k.spelling) ∧
    (∀ k : AggregateKind,
      (Aggregate.ofCall? word = some k ↔ ∃ f, Aggregate.named? word = some f ∧ f.name = k.name) ∧
      ((∃ f, Aggregate.named? word = some f ∧ f.name = k.name) ↔ lowerAscii word = lowerAscii k.name)) ∧
    LowerCaseOf word.toList (lowerCase word).toList ∧
    ∀ lower, LowerCaseOf word.toList lower →
      (∀ k : Keyword, lower = (lowerCase k.spelling).toList ↔ lowerAscii word = lowerAscii k.spelling) ∧
      ∀ k : AggregateKind, lower = k.name.toList ↔ lowerAscii word = lowerAscii k.name := by
  refine ⟨fun k => ofWord?_eq_some, fun k => ⟨?_, named?_kind⟩, ?_, fun lower lowered => ⟨fun k => ?_, fun k => ?_⟩⟩
  · rw [named?_kind, lowerAscii_kind]
    exact ofCall?_eq_some
  · unfold lowerCase
    rw [String.toList_ofList]
    exact lowerCaseOf_flatMap word.toList
  · rw [lowerCase_spelling, String.toList_ofList, lowered.eq_plain (keyword_plain k), lowerAscii_eq_iff]
  · rw [lowered.eq_plain (aggregate_plain k), lowerAscii_kind, ← String.toList_inj]
    unfold lowerAscii
    rw [String.toList_ofList]

/-- The theorem at words that have, or almost have, the lower case of a name: a final sigma behind it,
    a dot above its `i`, and capitals among its letters. -/
theorem spelled_in_ascii_words :
    LowerCaseOf "SUMΣ".toList "sumς".toList ∧ LowerCaseOf "SUMΣ".toList "sumσ".toList ∧
      Aggregate.ofCall? "SUMΣ" = none ∧ lowerCase "İnt" = "i\u0307nt" ∧ Keyword.ofWord? "İnt" = none ∧
      Keyword.ofWord? "wHeN" = some .WHEN ∧ Aggregate.ofCall? "Bool_OR" = some .boolOr ∧
      ("sumς".toList = AggregateKind.sum.name.toList ↔ lowerAscii "SUMΣ" = lowerAscii AggregateKind.sum.name) := by
  have final : LowerCaseOf "SUMΣ".toList "sumς".toList := .char (.char (.char (.finalSigma .nothing)))
  have inner : LowerCaseOf "SUMΣ".toList "sumσ".toList := .char (.char (.char (.char .nothing)))
  refine ⟨final, inner, by decide +kernel, by decide +kernel, by decide +kernel, ?_, ?_, ?_⟩
  · exact ((spelled_in_ascii "wHeN").1 .WHEN).mpr (by decide)
  · obtain ⟨called, named⟩ := (spelled_in_ascii "Bool_OR").2.1 .boolOr
    exact called.mpr (named.mpr (by decide))
  · exact ((spelled_in_ascii "SUMΣ").2.2.2 _ final).2 .sum

end StreamQuery
