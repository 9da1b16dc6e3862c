import StreamQuery.Token.Cursor

/-!
# Classes of characters

How the classes of characters lie to one another: blanks and digits begin no word, and no blank
goes on with one.
-/

namespace StreamQuery.Text

theorem contains_range {ranges : Ranges} {n : Nat} (inside : ranges.contains n = true) :
    ∃ range ∈ ranges, range.1 ≤ n ∧ n ≤ range.2 := by
  induction ranges with
  | nil => cases inside
  | cons range rest ih =>
    obtain ⟨first, last⟩ := range
    rw [Ranges.contains] at inside
    split at inside
    · cases inside
    · rename_i reached
      rw [Bool.or_eq_true, decide_eq_true_eq] at inside
      rcases inside with here | later
      · exact ⟨(first, last), List.mem_cons_self, Nat.le_of_not_lt reached, here⟩
      · obtain ⟨range, member, bounds⟩ := ih later
        exact ⟨range, List.mem_cons_of_mem _ member, bounds⟩

/-- What a property says of every code point of the ranges, it says of every character in them. -/
theorem forall_contains {ranges : Ranges} {p : Char → Prop}
    (each : ∀ range ∈ ranges, ∀ n ∈ List.range' range.1 (range.2 + 1 - range.1), p (Char.ofNat n))
    {c : Char} (inside : ranges.contains c.toNat = true) : p c := by
  obtain ⟨range, member, low, high⟩ := contains_range inside
  rw [← Char.ofNat_toNat c]
  exact each range member c.toNat (List.mem_range'_1.mpr ⟨low, by omega⟩)

theorem forall_ascii {p : Char → Prop} (each : ∀ n < 128, p (Char.ofNat n)) {c : Char} (ascii : c.toNat < 128) :
    p c := by
  rw [← Char.ofNat_toNat c]
  exact each c.toNat ascii

/-- Blanks belong to no word and no number, and complete no symbol. -/
theorem blank_spec {c : Char} (blank : isBlank c = true) :
    isWordChar c = false ∧ isDigit c = false ∧ c ≠ '=' ∧ c ≠ '>' :=
  forall_contains (p := fun c => isWordChar c = false ∧ isDigit c = false ∧ c ≠ '=' ∧ c ≠ '>')
    (by decide +kernel) blank

theorem wordChar_of_alphabetic {c : Char} (letter : isAlphabetic c = true) : isWordChar c = true := by
  unfold isWordChar
  rw [letter]
  rfl

theorem not_blank_of_wordChar {c : Char} (inWord : isWordChar c = true) : isBlank c = false := by
  cases blank : isBlank c with
  | false => rfl
  | true =>
    rw [(blank_spec blank).1] at inWord
    cases inWord

theorem not_alphabetic_of_blank {c : Char} (blank : isBlank c = true) : isAlphabetic c = false := by
  cases letter : isAlphabetic c with
  | false => rfl
  | true =>
    rw [not_blank_of_wordChar (wordChar_of_alphabetic letter)] at blank
    cases blank

theorem not_blank_of_digit {c : Char} (digit : isDigit c = true) : isBlank c = false := by
  cases blank : isBlank c with
  | false => rfl
  | true =>
    rw [(blank_spec blank).2.1] at digit
    cases digit

theorem ascii_of_digit {c : Char} (digit : isDigit c = true) : c.toNat < 128 := by
  unfold isDigit Char.isDigit at digit
  rw [Bool.and_eq_true, decide_eq_true_eq, decide_eq_true_eq] at digit
  have high : c.toNat ≤ '9'.toNat := digit.2
  exact Nat.lt_of_le_of_lt high (by decide)

theorem not_alphabetic_of_digit {c : Char} (digit : isDigit c = true) : isAlphabetic c = false := by
  have each : ∀ n < 128, isDigit (Char.ofNat n) = true → isAlphabetic (Char.ofNat n) = false := by decide +kernel
  exact forall_ascii (p := fun c => isDigit c = true → isAlphabetic c = false) each (ascii_of_digit digit) digit

theorem ne_dollar_of_digit {c : Char} (digit : isDigit c = true) : c ≠ '$' := by
  rintro rfl
  cases digit

theorem ne_dollar_of_alphabetic {c : Char} (letter : isAlphabetic c = true) : c ≠ '$' := by
  rintro rfl
  exact absurd letter (by decide)

theorem not_digit_of_alphabetic {c : Char} (letter : isAlphabetic c = true) : isDigit c = false := by
  cases digit : isDigit c with
  | false => rfl
  | true =>
    rw [not_alphabetic_of_digit digit] at letter
    cases letter

theorem toLower_outside {c : Char} (outside : ¬ c.toNat < 128) : c.toLower = c := by
  unfold Char.toLower
  refine dif_neg ?_
  rintro ⟨_, high⟩
  have small : c.toNat ≤ 'Z'.toNat := high
  exact outside (Nat.lt_of_le_of_lt small (by decide))

theorem ascii_of_isAlpha {c : Char} (letter : c.isAlpha = true) : c.toNat < 128 := by
  unfold Char.isAlpha Char.isUpper Char.isLower at letter
  simp only [Bool.or_eq_true, Bool.and_eq_true, decide_eq_true_eq] at letter
  rcases letter with ⟨_, high⟩ | ⟨_, high⟩
  · have small : c.toNat ≤ 'Z'.toNat := high
    exact Nat.lt_of_le_of_lt small (by decide)
  · have small : c.toNat ≤ 'z'.toNat := high
    exact Nat.lt_of_le_of_lt small (by decide)

/-- A character whose small letter is one of ASCII is itself a letter of ASCII. -/
theorem letter_of_toLower {c : Char} (letter : c.toLower.isAlpha = true) :
    c.toNat < 128 ∧ isAlphabetic c = true := by
  have each : ∀ n < 128, (Char.ofNat n).toLower.isAlpha = true → isAlphabetic (Char.ofNat n) = true := by
    decide +kernel
  by_cases ascii : c.toNat < 128
  · exact ⟨ascii, forall_ascii (p := fun c => c.toLower.isAlpha = true → isAlphabetic c = true) each ascii letter⟩
  · rw [toLower_outside ascii] at letter
    exact absurd (ascii_of_isAlpha letter) ascii

/-- The beginning of a text that has a property up to a place where it fails. -/
theorem takeWhile_append {p : Char → Bool} {cs rest : List Char} (all : ∀ c ∈ cs, p c = true)
    (stop : ∀ c ∈ rest.head?, p c = false) : (cs ++ rest).takeWhile p = cs := by
  rw [List.takeWhile_append_of_pos all]
  cases rest with
  | nil => simp
  | cons c rest => rw [List.takeWhile_cons_of_neg (by simp [stop c rfl]), List.append_nil]

end StreamQuery.Text
