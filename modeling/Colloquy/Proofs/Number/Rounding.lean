import Mathlib.Data.Int.Log
import Mathlib.Data.Rat.Floor
import Mathlib.Tactic.FieldSimp
import Mathlib.Tactic.Positivity
import Colloquy.Proofs.Number.Exact
import Colloquy.Proofs.Number.Patterns

/-!
# Rounding to a format

A number that a format keeps is rounded to itself.  A conversion to a wider format therefore changes
no number.
-/

namespace Colloquy

namespace BinaryFormat

variable {format : BinaryFormat} {negative : Bool}

theorem roundQuotient_mul {numerator denominator quotient : Nat} (positive : 0 < denominator)
    (exact : numerator = quotient * denominator) :
    roundQuotient numerator denominator = quotient := by
  subst exact
  simp [roundQuotient, Nat.mul_div_cancel _ positive, positive]

section Round

variable {numerator denominator significand : Nat} {exponent : Int}

/-- A quotient that needs no rounding is kept. -/
theorem roundScaled_of_eq (positive : 0 < denominator)
    (exact : (numerator : ℚ) / denominator = significand * 2 ^ exponent) :
    roundScaled numerator denominator exponent = significand := by
  have nonzero : (denominator : ℚ) ≠ 0 := by exact_mod_cast positive.ne'
  rw [div_eq_iff nonzero] at exact
  cases exponent with
  | ofNat exponent =>
    rw [roundScaled]
    refine roundQuotient_mul (Nat.mul_pos positive (Nat.pow_pos (by decide))) ?_
    rw [Int.ofNat_eq_natCast, zpow_natCast] at exact
    have product : numerator = significand * 2 ^ exponent * denominator := by exact_mod_cast exact
    rw [product, Nat.pow_eq]
    ring
  | negSucc exponent =>
    rw [roundScaled]
    refine roundQuotient_mul positive ?_
    have power : (2 : ℚ) ^ (exponent + 1) ≠ 0 := by positivity
    rw [zpow_negSucc] at exact
    have product : (numerator : ℚ) * 2 ^ (exponent + 1) = significand * denominator := by
      rw [exact]
      field_simp
    rw [Nat.pow_eq]
    exact_mod_cast product

/-- The quotient divided by a power of two, rounded down. -/
def floorScaled (numerator denominator : Nat) : Int → Nat
  | .ofNat exponent => numerator / (denominator * Nat.pow 2 exponent)
  | .negSucc exponent => numerator * Nat.pow 2 (exponent + 1) / denominator

theorem floorScaled_lt_iff (positive : 0 < denominator) {bound : Nat} :
    floorScaled numerator denominator exponent < bound ↔
      (numerator : ℚ) / denominator < bound * 2 ^ exponent := by
  have known : (0 : ℚ) < denominator := by exact_mod_cast positive
  cases exponent with
  | ofNat exponent =>
    rw [floorScaled, Nat.pow_eq, Nat.div_lt_iff_lt_mul (Nat.mul_pos positive (Nat.two_pow_pos _)),
      div_lt_iff₀ known, Int.ofNat_eq_natCast, zpow_natCast, mul_assoc,
      mul_comm (_ ^ _) (denominator : ℚ)]
    exact_mod_cast Iff.rfl
  | negSucc exponent =>
    have power : (0 : ℚ) < 2 ^ (exponent + 1) := by positivity
    rw [floorScaled, Nat.div_lt_iff_lt_mul positive, zpow_negSucc, ← div_eq_mul_inv,
      div_lt_div_iff₀ known power, Nat.pow_eq]
    exact_mod_cast Iff.rfl

/-- A quotient lies between the quotients of the powers of two around its parts. -/
theorem log_quotient (nonzero : numerator ≠ 0) (positive : 0 < denominator) :
    (numerator.log2 : Int) - denominator.log2 - 1 ≤
        Int.log 2 ((numerator : ℚ) / denominator) ∧
      Int.log 2 ((numerator : ℚ) / denominator) ≤ (numerator.log2 : Int) - denominator.log2 := by
  have known : (0 : ℚ) < denominator := by exact_mod_cast positive
  have quotient : (0 : ℚ) < (numerator : ℚ) / denominator := by positivity
  have numeratorLow : (2 : ℚ) ^ numerator.log2 ≤ numerator := by
    exact_mod_cast Nat.log2_self_le nonzero
  have numeratorHigh : (numerator : ℚ) < 2 ^ (numerator.log2 + 1) := by
    exact_mod_cast Nat.lt_log2_self
  have denominatorLow : (2 : ℚ) ^ denominator.log2 ≤ denominator := by
    exact_mod_cast Nat.log2_self_le positive.ne'
  have denominatorHigh : (denominator : ℚ) < 2 ^ (denominator.log2 + 1) := by
    exact_mod_cast Nat.lt_log2_self
  constructor
  · rw [← Int.zpow_le_iff_le_log (by decide) quotient, le_div_iff₀ known, Nat.cast_ofNat]
    calc (2 : ℚ) ^ ((numerator.log2 : Int) - denominator.log2 - 1) * denominator
        ≤ 2 ^ ((numerator.log2 : Int) - denominator.log2 - 1) * 2 ^ (denominator.log2 + 1) :=
          mul_le_mul_of_nonneg_left denominatorHigh.le (zpow_pos two_pos _).le
      _ = 2 ^ numerator.log2 := by
          rw [← zpow_natCast, ← zpow_natCast, ← zpow_add₀ two_ne_zero]
          congr 1
          omega
      _ ≤ numerator := numeratorLow
  · rw [← Int.lt_add_one_iff, ← Int.lt_zpow_iff_log_lt (by decide) quotient, div_lt_iff₀ known,
      Nat.cast_ofNat]
    calc (numerator : ℚ)
        < 2 ^ (numerator.log2 + 1) := numeratorHigh
      _ = 2 ^ ((numerator.log2 : Int) - denominator.log2 + 1) * 2 ^ denominator.log2 := by
          rw [← zpow_natCast, ← zpow_natCast, ← zpow_add₀ two_ne_zero]
          congr 1
          omega
      _ ≤ 2 ^ ((numerator.log2 : Int) - denominator.log2 + 1) * denominator :=
          mul_le_mul_of_nonneg_left denominatorLow (zpow_pos two_pos _).le

/-- The exponent of a quotient is that of its leading bit, less the bits behind it. -/
theorem exponentOf_eq (format : BinaryFormat) (nonzero : numerator ≠ 0)
    (positive : 0 < denominator) :
    format.exponentOf numerator denominator =
      max format.leastExponent
        (Int.log 2 ((numerator : ℚ) / denominator) + 1 - format.precision) := by
  have quotient : (0 : ℚ) < (numerator : ℚ) / denominator := by positivity
  obtain ⟨lower, upper⟩ := log_quotient nonzero positive
  generalize leading : (numerator.log2 : Int) - denominator.log2 = low at lower upper
  have fits : floorScaled numerator denominator (low - format.precision) <
      2 ^ format.precision ↔ Int.log 2 ((numerator : ℚ) / denominator) < low := by
    have power : ((2 ^ format.precision : Nat) : ℚ) * 2 ^ (low - format.precision) =
        ((2 : Nat) : ℚ) ^ low := by
      rw [Nat.cast_pow, Nat.cast_ofNat, ← zpow_natCast, ← zpow_add₀ two_ne_zero, add_sub_cancel]
    rw [floorScaled_lt_iff positive, power, Int.lt_zpow_iff_log_lt (by decide) quotient]
  have unfolded : format.exponentOf numerator denominator =
      max format.leastExponent
        (if floorScaled numerator denominator (low - format.precision) <
          2 ^ format.precision then low - format.precision else low - format.precision + 1) := by
    rw [exponentOf, leading]
    simp only [decide_eq_true_eq, Nat.pow_eq]
    cases low - (format.precision : Int) <;> rfl
  rw [unfolded]
  by_cases short : Int.log 2 ((numerator : ℚ) / denominator) < low
  · rw [if_pos (fits.2 short)]
    omega
  · rw [if_neg (fits.not.2 short)]
    omega

/-- A quotient that the format keeps has the exponent that it is kept under. -/
theorem exponentOf_of_normal (proper : format.Proper)
    (normal : format.Normal significand exponent) (nonzero : numerator ≠ 0)
    (positive : 0 < denominator)
    (exact : (numerator : ℚ) / denominator = significand * 2 ^ exponent) :
    format.exponentOf numerator denominator = exponent := by
  have scale : (0 : ℚ) < 2 ^ exponent := zpow_pos two_pos _
  have quotient : (0 : ℚ) < significand * 2 ^ exponent := by
    rw [← exact]
    positivity
  have upper : Int.log 2 ((significand : ℚ) * 2 ^ exponent) < format.precision + exponent := by
    rw [← Int.lt_zpow_iff_log_lt (by decide) quotient, Nat.cast_ofNat, zpow_add₀ two_ne_zero,
      zpow_natCast]
    refine mul_lt_mul_of_pos_right ?_ scale
    exact_mod_cast proper.two_mul_fractions ▸ normal.significand_lt
  have precise := proper.precise
  rw [exponentOf_eq format nonzero positive, exact]
  rcases normal.leads with least | leads
  · omega
  · have lower : (format.precision - 1 : Nat) + exponent ≤
        Int.log 2 ((significand : ℚ) * 2 ^ exponent) := by
      rw [← Int.zpow_le_iff_le_log (by decide) quotient, Nat.cast_ofNat, zpow_add₀ two_ne_zero,
        zpow_natCast]
      refine mul_le_mul_of_nonneg_right ?_ scale.le
      exact_mod_cast leads
    have least := normal.least_le
    omega

/-- A quotient that the format keeps is rounded to itself. -/
theorem encodeQuotient_of_normal (proper : format.Proper)
    (normal : format.Normal significand exponent) (positive : 0 < denominator)
    (exact : (numerator : ℚ) / denominator = significand * 2 ^ exponent) :
    format.encodeQuotient negative numerator denominator =
      format.finitePattern negative significand exponent := by
  by_cases zero : numerator = 0
  -- zero has no leading bit, so that only the least exponent is left for it
  · have nothing : significand = 0 := by
      rw [zero, Nat.cast_zero, zero_div, eq_comm, mul_eq_zero] at exact
      exact_mod_cast exact.resolve_right (zpow_pos two_pos _).ne'
    have positive := format.fractions_pos
    have least := normal.leads.resolve_right (by omega)
    simp [encodeQuotient, finitePattern, zero, nothing, least]
  · have below := finitePattern_false_lt normal
    rw [finitePattern, signBit_eq, Bool.toNat_false, Nat.mul_zero, Nat.zero_add] at below
    rw [encodeQuotient, if_neg zero, exponentOf_of_normal proper normal zero positive exact]
    dsimp only
    rw [roundScaled_of_eq positive exact, Nat.min_eq_left below.le, finitePattern]

end Round

/-- A value that the format keeps is rounded to itself. -/
theorem encode_of_normal (proper : format.Proper) {significand magnitude : Nat}
    {exponent scale : Int} (normal : format.Normal significand exponent)
    (exact : (magnitude : ℚ) * 2 ^ scale = significand * 2 ^ exponent) :
    format.encode (.finite negative magnitude scale) =
      format.finitePattern negative significand exponent := by
  cases scale with
  | ofNat scale =>
    refine encodeQuotient_of_normal proper normal Nat.one_pos ?_
    rw [← exact]
    simp
  | negSucc scale =>
    refine encodeQuotient_of_normal proper normal (Nat.pow_pos (by decide)) ?_
    rw [← exact, zpow_negSucc, div_eq_mul_inv]
    simp

/-- The format keeps a rational number. -/
def Keeps (format : BinaryFormat) (number : ℚ) : Prop :=
  ∃ significand exponent, format.Normal significand exponent ∧
    |number| = significand * 2 ^ exponent

theorem keeps_of_decode (proper : format.Proper) {bits : Nat} {number : ℚ}
    (stands : (format.decode bits).rat? = some number) : format.Keeps number := by
  obtain ⟨negative, significand, exponent, value, -, magnitude⟩ :=
    BinaryValue.rat?_eq_some_iff.1 stands
  exact ⟨significand, exponent, normal_of_decode proper value, magnitude⟩

/-- A number that the format keeps is rounded to itself. -/
theorem rat?_decode_encode (proper : format.Proper) {value : BinaryValue} {number : ℚ}
    (stands : value.rat? = some number) (keeps : format.Keeps number) :
    (format.decode (format.encode value)).rat? = some number := by
  obtain ⟨negative, magnitude, scale, rfl, sign, same⟩ := BinaryValue.rat?_eq_some_iff.1 stands
  obtain ⟨significand, exponent, normal, exact⟩ := keeps
  rw [encode_of_normal proper normal (same.symm.trans exact), decode_finitePattern normal]
  exact BinaryValue.rat?_eq_some_iff.2 ⟨_, _, _, rfl, sign, exact⟩

theorem rat?_decode_encode_iff (proper : format.Proper) {value : BinaryValue} {number : ℚ}
    (stands : value.rat? = some number) :
    (format.decode (format.encode value)).rat? = some number ↔ format.Keeps number :=
  ⟨keeps_of_decode proper, rat?_decode_encode proper stands⟩

section Convert

variable {source target : BinaryFormat}

theorem decode_encode_infinite (format : BinaryFormat) (negative : Bool) :
    format.decode (format.encode (.infinite negative)) = .infinite negative := by
  have parts : format.encode (.infinite negative) =
      format.pattern negative format.topField 0 := rfl
  rw [parts, decode_pattern format.topField_lt format.fractions_pos, ofFields, if_pos rfl,
    if_pos rfl]

/-- What is no number is converted to what is no number. -/
theorem decode_convert_of_nan (proper : target.Proper) {bits : Nat}
    (value : source.decode bits = .nan) :
    target.decode (source.convert target bits) = .nan := by
  have halves := proper.two_mul_half
  have positive := target.fractions_pos
  have quiet : 0 < target.fractions / 2 := by omega
  have rest := Nat.mod_lt (bits % source.fractions * target.fractions / source.fractions) quiet
  rw [convert, value]
  dsimp only
  generalize bits % source.fractions * target.fractions / source.fractions %
    (target.fractions / 2) = fraction at rest
  have parts : target.signBit (source.isNegative bits) + target.infinity +
      target.fractions / 2 + fraction =
        target.pattern (source.isNegative bits) target.topField
          (target.fractions / 2 + fraction) := by
    rw [pattern, infinity]
    omega
  rw [parts, decode_pattern target.topField_lt (by omega), ofFields, if_pos rfl, if_neg (by omega)]

/-- The target format has at least as many bits for the significand and the exponent. -/
structure FitsIn (source target : BinaryFormat) : Prop where
  /-- There are no fewer fractions. -/
  fractions_le : source.fractions ≤ target.fractions
  /-- The least exponent is no greater. -/
  least_le : target.leastExponent ≤ source.leastExponent
  /-- The greatest exponent is no less. -/
  greatest_le : source.leastExponent + source.topField ≤ target.leastExponent + target.topField

/-- A number of few enough bits is kept: leading zeros are taken up by the exponent. -/
theorem exists_normal {significand : Nat} (steps : Nat) (small : significand < 2 * format.fractions)
    (greatest : steps + 2 ≤ format.topField) :
    ∃ leading exponent, format.Normal leading exponent ∧
      (significand : ℚ) * 2 ^ (format.leastExponent + steps) = leading * 2 ^ exponent := by
  -- the steps of the exponent above the least one are used up as the significand is doubled
  induction steps generalizing significand with
  | zero => exact ⟨significand, _, ⟨small, by simp, by omega, .inl (by simp)⟩, rfl⟩
  | succ steps shifted =>
    by_cases leads : format.fractions ≤ significand
    · exact ⟨significand, _, ⟨small, by omega, by omega, .inr leads⟩, rfl⟩
    · have doubled : 2 * significand < 2 * format.fractions := by omega
      obtain ⟨leading, exponent, normal, same⟩ := shifted doubled (by omega)
      refine ⟨leading, exponent, normal, ?_⟩
      rw [← same, Nat.cast_succ, ← add_assoc, zpow_add_one₀ two_ne_zero]
      push_cast
      ring

theorem Keeps.fitsIn (wider : source.FitsIn target) {number : ℚ} (keeps : source.Keeps number) :
    target.Keeps number := by
  obtain ⟨significand, exponent, normal, magnitude⟩ := keeps
  obtain ⟨small, least, greatest, -⟩ := normal
  obtain ⟨fractions, lower, upper⟩ := wider
  obtain ⟨steps, known⟩ := Int.eq_ofNat_of_zero_le (Int.sub_nonneg_of_le (lower.trans least))
  have fits : significand < 2 * target.fractions :=
    small.trans_le (Nat.mul_le_mul_left 2 fractions)
  obtain ⟨leading, scale, kept, same⟩ := exists_normal steps fits (by omega)
  refine ⟨leading, scale, kept, ?_⟩
  rw [magnitude, ← same, ← known, add_sub_cancel]

/-- What is a number or an infinity is converted by rounding. -/
theorem convert_of_ne (target : BinaryFormat) {bits : Nat}
    {value : BinaryValue} (known : source.decode bits = value) (other : value ≠ .nan) :
    source.convert target bits = target.encode value := by
  rw [convert, known]
  cases value with
  | nan => exact absurd rfl other
  | infinite negative => rfl
  | finite negative significand exponent => rfl

/-- A conversion to a wider format keeps the number. -/
theorem rat?_convert (sourceProper : source.Proper) (proper : target.Proper)
    (wider : source.FitsIn target) (bits : Nat) :
    (target.decode (source.convert target bits)).rat? = (source.decode bits).rat? := by
  cases value : source.decode bits with
  | nan => rw [decode_convert_of_nan proper value]
  | infinite negative =>
    rw [convert_of_ne target value (by simp), decode_encode_infinite]
  | finite negative significand exponent =>
    have stands := BinaryValue.rat?_finite negative significand exponent
    have keeps := keeps_of_decode sourceProper (by rw [value, stands])
    rw [convert_of_ne target value (by simp), stands,
      rat?_decode_encode proper stands (keeps.fitsIn wider)]

end Convert

end BinaryFormat

end Colloquy
