import Mathlib.Tactic.Ring
import Colloquy.Number.Binary

/-!
# Bit patterns

The fields of a bit pattern.  A format keeps a finite number under just one significand and exponent
for each sign: its pattern is read back as these, and every pattern of a finite number is put
together from them.
-/

namespace Colloquy

namespace BinaryFormat

variable {format : BinaryFormat} {negative : Bool}

theorem fractions_pos (format : BinaryFormat) : 0 < format.fractions := Nat.pow_pos (by decide)

theorem topField_lt (format : BinaryFormat) : format.topField < 2 ^ format.exponentBits :=
  Nat.sub_lt (Nat.two_pow_pos _) (by decide)

/-- A format with a bit behind the leading one and with normal numbers. -/
structure Proper (format : BinaryFormat) : Prop where
  /-- The significand has a bit behind the leading one. -/
  precise : 2 ≤ format.precision
  /-- The exponent field tells subnormal, normal and infinite numbers apart. -/
  deep : 2 ≤ format.topField

theorem single_proper : single.Proper := ⟨by decide, by decide⟩

theorem double_proper : double.Proper := ⟨by decide, by decide⟩

theorem Proper.two_mul_fractions (proper : format.Proper) :
    2 * format.fractions = 2 ^ format.precision := by
  have oneBit : 1 ≤ format.precision := le_of_lt proper.precise
  rw [fractions, Nat.pow_eq, ← Nat.pow_succ', Nat.succ_eq_add_one, Nat.sub_add_cancel oneBit]

theorem Proper.two_mul_half (proper : format.Proper) :
    2 * (format.fractions / 2) = format.fractions := by
  obtain ⟨shorter, known⟩ := Nat.exists_eq_add_of_le proper.precise
  rw [fractions, known, show 2 + shorter - 1 = shorter + 1 by omega, Nat.pow_eq, Nat.pow_succ']
  omega

/-- The number of patterns without a sign. -/
def magnitudes (format : BinaryFormat) : Nat := format.fractions * 2 ^ format.exponentBits

theorem signBit_eq (format : BinaryFormat) (negative : Bool) :
    format.signBit negative = format.magnitudes * negative.toNat := by
  cases negative <;> simp [signBit, magnitudes]

/-- The pattern of a sign, an exponent field and a fraction. -/
def pattern (format : BinaryFormat) (negative : Bool) (field fraction : Nat) : Nat :=
  format.signBit negative + (field * format.fractions + fraction)

/-- The value of a sign, an exponent field and a fraction. -/
def ofFields (format : BinaryFormat) (negative : Bool) (field fraction : Nat) : BinaryValue :=
  if field = format.topField then
    if fraction = 0 then .infinite negative else .nan
  else if field = 0 then
    .finite negative fraction format.leastExponent
  else
    .finite negative (format.fractions + fraction) (format.leastExponent + (field - 1))

/-- The value of a pattern is that of its fields. -/
theorem decode_eq (format : BinaryFormat) (bits : Nat) :
    format.decode bits = format.ofFields (format.isNegative bits)
      (bits / format.fractions % 2 ^ format.exponentBits) (bits % format.fractions) :=
  rfl

/-- Bits above the sign do not count. -/
theorem decode_mod (format : BinaryFormat) (bits : Nat) :
    format.decode (bits % (2 * format.magnitudes)) = format.decode bits := by
  have modulus : 2 * format.magnitudes =
      format.fractions * (2 ^ format.exponentBits * 2) := by
    rw [magnitudes]
    ring
  have fraction : bits % (2 * format.magnitudes) % format.fractions = bits % format.fractions := by
    rw [modulus, Nat.mod_mul_right_mod]
  have quotient : bits % (2 * format.magnitudes) / format.fractions =
      bits / format.fractions % (2 ^ format.exponentBits * 2) := by
    rw [modulus, Nat.mod_mul_right_div_self]
  simp only [decode_eq, isNegative, Nat.pow_eq, fraction, quotient, Nat.mod_mul_right_mod,
    Nat.mod_mul_right_div_self, Nat.mod_mod]

section Fields

variable {field fraction : Nat}

theorem pattern_eq (format : BinaryFormat) (negative : Bool) (field fraction : Nat) :
    format.pattern negative field fraction =
      fraction + format.fractions * (field + 2 ^ format.exponentBits * negative.toNat) := by
  rw [pattern, signBit_eq, magnitudes]
  ring

theorem pattern_mod (fits : fraction < format.fractions) :
    format.pattern negative field fraction % format.fractions = fraction := by
  rw [pattern_eq, Nat.add_mul_mod_self_left, Nat.mod_eq_of_lt fits]

theorem pattern_div (fits : fraction < format.fractions) :
    format.pattern negative field fraction / format.fractions =
      field + 2 ^ format.exponentBits * negative.toNat := by
  rw [pattern_eq, Nat.add_mul_div_left _ _ format.fractions_pos, Nat.div_eq_of_lt fits,
    Nat.zero_add]

theorem isNegative_pattern (fieldFits : field < 2 ^ format.exponentBits)
    (fits : fraction < format.fractions) :
    format.isNegative (format.pattern negative field fraction) = negative := by
  rw [isNegative, pattern_div fits, Nat.pow_eq, Nat.add_mul_div_left _ _ (Nat.two_pow_pos _),
    Nat.div_eq_of_lt fieldFits, Nat.zero_add]
  cases negative <;> rfl

theorem decode_pattern (fieldFits : field < 2 ^ format.exponentBits)
    (fits : fraction < format.fractions) :
    format.decode (format.pattern negative field fraction) =
      format.ofFields negative field fraction := by
  rw [decode_eq, isNegative_pattern fieldFits fits, pattern_mod fits, pattern_div fits,
    Nat.add_mul_mod_self_left, Nat.mod_eq_of_lt fieldFits]

/-- A pattern is put together from its fields. -/
theorem pattern_fields {bits : Nat} (fits : bits < 2 * format.magnitudes) :
    format.pattern (format.isNegative bits) (bits / format.fractions % 2 ^ format.exponentBits)
      (bits % format.fractions) = bits := by
  have sign : (format.isNegative bits).toNat =
      bits / format.fractions / 2 ^ format.exponentBits := by
    have above : bits / format.fractions / 2 ^ format.exponentBits < 2 := by
      rw [Nat.div_div_eq_div_mul]
      exact Nat.div_lt_of_lt_mul (by rwa [Nat.mul_comm] at fits)
    unfold isNegative
    rw [Nat.pow_eq]
    generalize bits / format.fractions / 2 ^ format.exponentBits = digit at above
    obtain rfl | rfl : digit = 0 ∨ digit = 1 := by omega
    · rfl
    · rfl
  rw [pattern_eq, sign, Nat.mod_add_div, Nat.mod_add_div]

end Fields

/-- The significand and the exponent under which a format keeps a finite number: the leading bit is
set unless the exponent is the least one. -/
structure Normal (format : BinaryFormat) (significand : Nat) (exponent : Int) : Prop where
  /-- The significand has no more bits than the format keeps. -/
  significand_lt : significand < 2 * format.fractions
  /-- The exponent is not below the least one. -/
  least_le : format.leastExponent ≤ exponent
  /-- The exponent is that of a finite number. -/
  le_greatest : exponent + 2 ≤ format.leastExponent + format.topField
  /-- There is no leading zero that a lesser exponent could take up. -/
  leads : exponent = format.leastExponent ∨ format.fractions ≤ significand

/-- The pattern of a sign, a significand and an exponent. -/
def finitePattern (format : BinaryFormat) (negative : Bool) (significand : Nat) (exponent : Int) :
    Nat :=
  format.signBit negative +
    ((exponent - format.leastExponent).toNat * format.fractions + significand)

section Finite

variable {significand : Nat} {exponent : Int}

/-- A finite number has fields: the exponent field is zero where the leading bit is not set. -/
theorem Normal.exists_fields (normal : format.Normal significand exponent) (negative : Bool) :
    ∃ field fraction, field < format.topField ∧ fraction < format.fractions ∧
      format.pattern negative field fraction =
        format.finitePattern negative significand exponent ∧
      format.ofFields negative field fraction = .finite negative significand exponent := by
  have ⟨small, least, greatest, leads⟩ := normal
  by_cases lesser : significand < format.fractions
  · obtain rfl : exponent = format.leastExponent := leads.resolve_right (by omega)
    refine ⟨0, significand, by omega, lesser, ?_, ?_⟩
    · simp [pattern, finitePattern]
    · rw [ofFields, if_neg (by omega), if_pos rfl]
  · obtain ⟨steps, known⟩ := Int.eq_ofNat_of_zero_le (Int.sub_nonneg_of_le least)
    refine ⟨steps + 1, significand - format.fractions, by omega, by omega, ?_, ?_⟩
    · rw [pattern, finitePattern, known, Int.toNat_natCast, Nat.succ_mul]
      omega
    · rw [ofFields, if_neg (by omega), if_neg (by omega)]
      congr 1 <;> omega

/-- The pattern of a finite number is read back as that number. -/
theorem decode_finitePattern (normal : format.Normal significand exponent) :
    format.decode (format.finitePattern negative significand exponent) =
      .finite negative significand exponent := by
  obtain ⟨field, fraction, fieldFits, fits, same, value⟩ := normal.exists_fields negative
  rw [← same, decode_pattern (fieldFits.trans format.topField_lt) fits, value]

theorem finitePattern_false_lt (normal : format.Normal significand exponent) :
    format.finitePattern false significand exponent < format.infinity := by
  obtain ⟨field, fraction, fieldFits, fits, same, -⟩ := normal.exists_fields false
  have below := Nat.mul_le_mul_right format.fractions (Nat.succ_le_of_lt fieldFits)
  rw [← same, pattern, infinity, signBit_eq, Bool.toNat_false]
  rw [Nat.succ_mul] at below
  omega

theorem normal_of_ofFields (proper : format.Proper) {field fraction : Nat} {sign : Bool}
    (fieldFits : field < 2 ^ format.exponentBits) (fits : fraction < format.fractions)
    (value : format.ofFields sign field fraction = .finite negative significand exponent) :
    format.Normal significand exponent ∧
      format.pattern sign field fraction =
        format.finitePattern negative significand exponent := by
  have top : format.topField = 2 ^ format.exponentBits - 1 := rfl
  have deep := proper.deep
  unfold ofFields at value
  split at value
  · split at value <;> cases value
  · split at value
    · rename_i below zero
      obtain ⟨rfl, rfl, rfl⟩ := BinaryValue.finite.inj value
      refine ⟨⟨by omega, le_rfl, by omega, .inl rfl⟩, ?_⟩
      simp [pattern, finitePattern, zero]
    · rename_i below nonzero
      obtain ⟨steps, rfl⟩ := Nat.exists_eq_succ_of_ne_zero nonzero
      obtain ⟨rfl, rfl, rfl⟩ := BinaryValue.finite.inj value
      refine ⟨⟨by omega, by omega, by omega, .inr (by omega)⟩, ?_⟩
      have offset :
          (format.leastExponent + ((steps.succ : Nat) - 1) - format.leastExponent).toNat =
            steps := by
        omega
      rw [pattern, finitePattern, offset, Nat.succ_mul]
      omega

/-- A finite number that a pattern stands for is kept by the format. -/
theorem normal_of_decode (proper : format.Proper) {bits : Nat}
    (value : format.decode bits = .finite negative significand exponent) :
    format.Normal significand exponent :=
  (normal_of_ofFields proper (Nat.mod_lt _ (Nat.two_pow_pos _)) (Nat.mod_lt _ format.fractions_pos)
    value).1

/-- A pattern that stands for a finite number is the pattern of that number. -/
theorem eq_finitePattern_of_decode (proper : format.Proper) {bits : Nat}
    (fits : bits < 2 * format.magnitudes)
    (value : format.decode bits = .finite negative significand exponent) :
    bits = format.finitePattern negative significand exponent :=
  (pattern_fields fits).symm.trans
    (normal_of_ofFields proper (Nat.mod_lt _ (Nat.two_pow_pos _))
      (Nat.mod_lt _ format.fractions_pos) value).2

end Finite

end BinaryFormat

end Colloquy
