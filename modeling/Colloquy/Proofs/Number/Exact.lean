import Mathlib.Data.Rat.Cast.Order
import Colloquy.Number.Basic

/-!
# Exact values

The rational number that a number stands for.  The integer that a bit pattern equals is found in it
just in case the pattern stands for that rational number.
-/

namespace Colloquy

namespace BinaryValue

/-- The rational number that a value stands for, if it is finite. -/
def rat? : BinaryValue → Option ℚ
  | finite negative significand exponent => some (signed negative significand * 2 ^ exponent)
  | _ => none

/-- A quotient is an integer just in case nothing remains of the division. -/
theorem div_eq_intCast_iff {magnitude unit : Nat} (positive : 0 < unit) {integer : Int} :
    (magnitude : ℚ) / unit = integer ↔
      magnitude % unit = 0 ∧ ((magnitude / unit : Nat) : Int) = integer := by
  have nonzero : (unit : ℚ) ≠ 0 := by exact_mod_cast positive.ne'
  rw [div_eq_iff nonzero]
  constructor
  · intro same
    have product : (magnitude : Int) = integer * unit := by exact_mod_cast same
    have divides : unit ∣ magnitude := Int.natCast_dvd_natCast.1 (product ▸ Int.dvd_mul_left ..)
    refine ⟨Nat.mod_eq_zero_of_dvd divides, ?_⟩
    rw [Int.natCast_div, product, Int.mul_ediv_cancel _ (by exact_mod_cast positive.ne')]
  · rintro ⟨divides, rfl⟩
    exact_mod_cast (Nat.div_mul_cancel (Nat.dvd_of_mod_eq_zero divides)).symm

theorem signed_div_eq_intCast_iff {negative : Bool} {magnitude unit : Nat} (positive : 0 < unit)
    {integer : Int} :
    (signed negative magnitude : ℚ) / unit = integer ↔
      magnitude % unit = 0 ∧ signed negative (magnitude / unit) = integer := by
  cases negative with
  | false => exact div_eq_intCast_iff positive
  | true =>
    have negated : (signed true magnitude : ℚ) / unit = integer ↔
        (magnitude : ℚ) / unit = (-integer : Int) := by
      simp only [signed, if_true, Int.cast_neg, Int.cast_natCast, neg_div]
      exact neg_eq_iff_eq_neg
    rw [negated, div_eq_intCast_iff positive]
    exact and_congr_right fun _ => neg_eq_iff_eq_neg.symm

/-- The integer of a value is found just in case the value is that integer. -/
theorem integer?_eq_some_iff {value : BinaryValue} {integer : Int} :
    value.integer? = some integer ↔ value.rat? = some (integer : ℚ) := by
  cases value with
  | nan => simp [integer?, rat?]
  | infinite negative => simp [integer?, rat?]
  | finite negative significand exponent =>
    cases exponent with
    | ofNat exponent =>
      have scaled : (signed negative significand * 2 ^ (exponent : Int) : ℚ) =
          signed negative (significand * Nat.pow 2 exponent) := by
        cases negative <;> simp [signed]
      rw [integer?, rat?, Int.ofNat_eq_natCast, scaled, Option.some.injEq, Option.some.injEq,
        Int.cast_inj]
    | negSucc exponent =>
      have positive : 0 < Nat.pow 2 (exponent + 1) := Nat.pow_pos (by decide)
      have shrunk : (signed negative significand * 2 ^ Int.negSucc exponent : ℚ) =
          (signed negative significand : ℚ) / Nat.pow 2 (exponent + 1) := by
        simp [zpow_negSucc, div_eq_mul_inv]
      rw [rat?, shrunk, Option.some.injEq, signed_div_eq_intCast_iff positive]
      simp only [integer?, Option.ite_none_right_eq_some, Option.some.injEq]

theorem rat?_finite (negative : Bool) (significand : Nat) (exponent : Int) :
    (finite negative significand exponent).rat? =
      some ((if negative then -1 else 1) * ((significand : ℚ) * 2 ^ exponent)) := by
  cases negative <;> simp [rat?, signed]

/-- A value that stands for a number has its sign and its magnitude. -/
theorem rat?_eq_some_iff {value : BinaryValue} {number : ℚ} :
    value.rat? = some number ↔ ∃ negative significand exponent,
      value = finite negative significand exponent ∧
        number = (if negative then -1 else 1) * |number| ∧
        |number| = significand * 2 ^ exponent := by
  constructor
  · intro stands
    cases value with
    | nan => cases stands
    | infinite negative => cases stands
    | finite negative significand exponent =>
      have magnitude : (0 : ℚ) ≤ significand * 2 ^ exponent :=
        mul_nonneg (Nat.cast_nonneg _) (zpow_pos two_pos _).le
      rw [rat?_finite, Option.some.injEq] at stands
      have absolute : |number| = significand * 2 ^ exponent := by
        rw [← stands]
        cases negative <;> simp [abs_of_nonneg magnitude]
      exact ⟨_, _, _, rfl, by rw [absolute, stands], absolute⟩
  · rintro ⟨negative, significand, exponent, rfl, sign, magnitude⟩
    rw [rat?_finite, ← magnitude, ← sign]

theorem rat?_ofInt (integer : Int) : (ofInt integer).rat? = some (integer : ℚ) := by
  have signed_natAbs : signed (integer < 0) integer.natAbs = integer := by
    simp only [signed, decide_eq_true_eq]
    split <;> omega
  rw [ofInt, rat?, signed_natAbs, zpow_zero, mul_one]

end BinaryValue

namespace Number

/-- The rational number that a number stands for, if it is finite. -/
def rat? : Number → Option ℚ
  | whole number => some number.value
  | float number => number.value.rat?
  | double number => number.value.rat?

/-- The integer of a number is found just in case the number is that integer. -/
theorem integer?_eq_some_iff {number : Number} {integer : Int} :
    number.integer? = some integer ↔ number.rat? = some (integer : ℚ) := by
  cases number with
  | whole number => simp [integer?, rat?]
  | float number => exact BinaryValue.integer?_eq_some_iff
  | double number => exact BinaryValue.integer?_eq_some_iff

end Number

end Colloquy
