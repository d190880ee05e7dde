import Colloquy.Text.Blank
import Colloquy.Text.Word

/-!
# Characters of words

How letters, digits, underscores and blanks exclude each other.
-/

namespace Colloquy.Text

theorem range_of_isDigit {c : Char} (digit : c.isDigit) : 48 ≤ c.toNat ∧ c.toNat ≤ 57 := by
  simpa [Char.isDigit, UInt32.le_iff_toNat_le] using digit

/-- The digits come before every character behind the nine. -/
theorem not_le_of_isDigit {c other : Char} (digit : c.isDigit) (behind : 57 < other.toNat) :
    ¬ other.val ≤ c.val := by
  have below := (range_of_isDigit digit).2
  rw [UInt32.le_iff_toNat_le]
  exact Nat.not_le.2 (Nat.lt_of_le_of_lt below behind)

theorem not_isUpper_of_isDigit {c : Char} (digit : c.isDigit) : ¬ c.isUpper := fun upper =>
  not_le_of_isDigit digit (by decide) (of_decide_eq_true upper).1

theorem not_isLower_of_isDigit {c : Char} (digit : c.isDigit) : ¬ c.isLower := fun lower =>
  not_le_of_isDigit digit (by decide) (of_decide_eq_true (Bool.and_eq_true_iff.1 lower).1)

theorem toLower_of_not_isUpper {c : Char} (small : ¬c.isUpper) : c.toLower = c :=
  dif_neg fun upper => small (decide_eq_true upper)

theorem toLower_of_isDigit {c : Char} (digit : c.isDigit) : c.toLower = c :=
  toLower_of_not_isUpper (not_isUpper_of_isDigit digit)

theorem toNat_toLower_of_isUpper {c : Char} (upper : c.isUpper) :
    c.toLower.toNat = c.toNat + 32 := by
  have range : c.val ≥ 'A'.val ∧ c.val ≤ 'Z'.val := of_decide_eq_true upper
  have bound : c.toNat ≤ 'Z'.toNat := range.2
  have lowered : c.toLower = _ := dif_pos range
  rw [lowered]
  exact Nat.mod_eq_of_lt (Nat.lt_of_le_of_lt (Nat.add_le_add_right bound 32) (by decide))

theorem isUpper_iff {c : Char} : c.isUpper ↔ 65 ≤ c.toNat ∧ c.toNat ≤ 90 :=
  decide_eq_true_iff

theorem range_of_isLower {c : Char} (lower : c.isLower) : 97 ≤ c.toNat ∧ c.toNat ≤ 122 :=
  (Bool.and_eq_true_iff.1 lower).imp of_decide_eq_true of_decide_eq_true

theorem isAlpha_iff {c : Char} : c.isAlpha ↔ c.isUpper ∨ c.isLower := Bool.or_eq_true_iff

theorem not_isUpper_toLower (c : Char) : ¬c.toLower.isUpper := by
  by_cases upper : c.isUpper
  · have range := isUpper_iff.1 upper
    rw [isUpper_iff, toNat_toLower_of_isUpper upper]
    omega
  · rwa [toLower_of_not_isUpper upper]

/-- A character is as blank in lower case as it is written. -/
theorem isBlank_toLower (c : Char) : isBlank c.toLower = isBlank c := by
  by_cases upper : c.isUpper
  · have range := isUpper_iff.1 upper
    rw [Bool.eq_iff_iff]
    simp only [isBlank, toNat_toLower_of_isUpper upper, Bool.or_eq_true, Bool.and_eq_true,
      decide_eq_true_eq, beq_iff_eq]
    omega
  · rw [toLower_of_not_isUpper upper]

theorem not_isNameStart_of_isDigit {c : Char} (digit : c.isDigit) : isNameStart c = false := by
  rw [Bool.eq_false_iff]
  intro starts
  change (c.isUpper || c.isLower || c == '_') = true at starts
  simp only [Bool.or_eq_true, beq_iff_eq] at starts
  rcases starts with (upper | lower) | rfl
  · exact not_isUpper_of_isDigit digit upper
  · exact not_isLower_of_isDigit digit lower
  · cases digit

theorem isWordChar_of_isNameStart {c : Char} (starts : isNameStart c) : isWordChar c := by
  simp only [isNameStart, Bool.or_eq_true, isWordChar, Char.isAlphanum] at starts ⊢
  rcases starts with alpha | underscore
  · exact .inl (.inl alpha)
  · exact .inr underscore

theorem isWordChar_of_isDigit {c : Char} (digit : c.isDigit) : isWordChar c := by
  simp [isWordChar, Char.isAlphanum, digit]

theorem range_of_isWordChar {c : Char} (part : isWordChar c) :
    48 ≤ c.toNat ∧ c.toNat ≤ 122 := by
  simp only [isWordChar, Char.isAlphanum, Bool.or_eq_true, isAlpha_iff, beq_iff_eq] at part
  rcases part with ((upper | lower) | digit) | rfl
  · have range := isUpper_iff.1 upper
    omega
  · have range := range_of_isLower lower
    omega
  · have range := range_of_isDigit digit
    omega
  · decide

/-- The printable characters of ASCII are visible, the space apart. -/
theorem not_isBlank_of_range {c : Char} (above : 0x20 < c.toNat) (below : c.toNat < 0x7f) :
    isBlank c = false := by
  simp only [isBlank, Bool.or_eq_false_iff, Bool.and_eq_false_iff, decide_eq_false_iff_not,
    beq_eq_false_iff_ne]
  omega

theorem not_isBlank_of_isWordChar {c : Char} (part : isWordChar c) : isBlank c = false := by
  have range := range_of_isWordChar part
  exact not_isBlank_of_range (by omega) (by omega)

theorem not_isBlank_of_isDigit {c : Char} (digit : c.isDigit) : isBlank c = false :=
  not_isBlank_of_isWordChar (isWordChar_of_isDigit digit)

theorem not_isSpacing_of_isWordChar {c : Char} (part : isWordChar c) : isSpacing c = false := by
  rw [Bool.eq_false_iff]
  intro space
  simp only [isSpacing, Bool.or_eq_true, beq_iff_eq] at space
  rcases space with rfl | rfl
  · exact absurd part (by decide)
  · exact absurd part (by decide)

end Colloquy.Text
