import Colloquy.Number.Basic
import Colloquy.Proofs.Text.Alphabet

/-!
# The characters of printed numbers

Numbers of every kind are printed in printable ASCII characters.
-/

namespace Colloquy

open Text (isPrintable)

theorem isPrintable_digitChar (digit : Nat) : isPrintable digit.digitChar := by
  have low : ∀ digit < 16, isPrintable digit.digitChar := by decide
  by_cases small : digit < 16
  · exact low digit small
  · have other : digit.digitChar = '*' := by
      unfold Nat.digitChar
      repeat rw [if_neg (by omega)]
    rw [other]
    decide

theorem isPrintable_toDigitsCore (base fuel number : Nat) {behind : List Char}
    (plain : behind.all isPrintable) :
    (Nat.toDigitsCore base fuel number behind).all isPrintable := by
  induction fuel generalizing number behind with
  | zero => exact plain
  | succ fuel ih =>
    have further : ((number % base).digitChar :: behind).all isPrintable := by
      rw [List.all_cons, isPrintable_digitChar, plain]
      rfl
    rw [Nat.toDigitsCore]
    split
    · exact further
    · exact ih _ further

theorem isPrintable_toDigits (base number : Nat) :
    (Nat.toDigits base number).all isPrintable :=
  isPrintable_toDigitsCore base _ number rfl

theorem isPrintable_toString_nat (number : Nat) : (toString number).toList.all isPrintable := by
  rw [Nat.toString_eq_repr, Nat.toList_repr]
  exact isPrintable_toDigits 10 number

theorem isPrintable_toString_int (number : Int) : (toString number).toList.all isPrintable := by
  cases number with
  | ofNat number => exact isPrintable_toString_nat number
  | negSucc number =>
    have text : (toString (Int.negSucc number)).toList = '-' :: (toString (number + 1)).toList := by
      simp [toString, Int.repr]
    rw [text, List.all_cons, isPrintable_toString_nat]
    decide

namespace Decimal

theorem isPrintable_of_subset {text rest : List Char} (plain : text.all isPrintable)
    (fewer : rest ⊆ text) : rest.all isPrintable :=
  List.all_eq_true.2 fun c member => List.all_eq_true.1 plain c (fewer member)

theorem isPrintable_ofScaled (coefficient : Nat) (exponent : Int) :
    (ofScaled coefficient exponent).digits.all isPrintable := by
  refine isPrintable_of_subset (isPrintable_toDigits 10 coefficient) fun c member => ?_
  rw [ofScaled] at member
  exact List.mem_reverse.1 ((List.dropWhile_suffix _).subset (List.mem_reverse.1 member))

theorem isPrintable_shortest (format : BinaryFormat) (significand : Nat) (exponent : Int) :
    (shortest format significand exponent).digits.all isPrintable := by
  simp only [shortest]
  cases found : (List.range 17).findSome? _ with
  | none => decide
  | some decimal =>
    obtain ⟨count, -, made⟩ := List.exists_of_findSome?_eq_some found
    obtain ⟨units, -, rfl⟩ := Option.map_eq_some_iff.1 made
    exact isPrintable_ofScaled units _

variable {decimal : Decimal} (plain : decimal.digits.all isPrintable)

include plain

theorem isPrintable_positional : (positional decimal).all isPrintable := by
  have zero : isPrintable '0' := by decide
  have point : isPrintable '.' := by decide
  have zeros (count : Nat) : (List.replicate count '0').all isPrintable := by simp [zero]
  unfold positional
  split
  · simp only [List.all_append, List.all_cons, zero, point, zeros, plain, Bool.and_self]
  · simp only [List.all_cons, zero, point, plain, Bool.and_self]
  · rename_i place _ _
    split
    · simp only [List.all_append, List.all_cons, List.all_nil, zero, point, zeros, plain,
        Bool.and_self]
    · have front := isPrintable_of_subset plain (List.take_subset place decimal.digits)
      have back := isPrintable_of_subset plain (List.drop_subset place decimal.digits)
      simp only [List.all_append, List.all_cons, point, front, back, Bool.and_self]

theorem isPrintable_exponential : (exponential decimal).all isPrintable := by
  have mark : isPrintable 'e' := by decide
  have point : isPrintable '.' := by decide
  have front := isPrintable_of_subset plain (List.take_subset 1 decimal.digits)
  have back := isPrintable_of_subset plain (List.drop_subset 1 decimal.digits)
  simp only [exponential]
  split
  · simp only [List.all_append, List.all_cons, List.all_nil, front, mark, isPrintable_toString_int,
      Bool.and_self]
  · rename_i rest _
    simp only [List.all_append, List.all_cons, front, back, mark, point, isPrintable_toString_int,
      Bool.and_self]

end Decimal

namespace FloatText

theorem isPrintable_withCapital {text : List Char} (plain : text.all isPrintable) :
    (withCapital text).all isPrintable := by
  have front := Decimal.isPrintable_of_subset plain (List.takeWhile_prefix (· != 'e')).subset
  have back := Decimal.isPrintable_of_subset plain (List.dropWhile_suffix (· != 'e')).subset
  have mantissa : (if '.' ∈ text.takeWhile (· != 'e') then text.takeWhile (· != 'e')
      else text.takeWhile (· != 'e') ++ ['.', '0']).all isPrintable := by
    split
    · exact front
    · rw [List.all_append, front]
      decide
  have mark : isPrintable 'E' := by decide
  simp only [withCapital, List.all_append, List.all_cons, mantissa, mark, Bool.true_and]
  split
  · decide
  · rename_i after
    rw [after, List.all_cons, Bool.and_eq_true] at back
    exact back.2

theorem isPrintable_laidOut (format : BinaryFormat) {layout : Decimal → List Char}
    (plain : ∀ decimal : Decimal, decimal.digits.all isPrintable →
      (layout decimal).all isPrintable) (value : BinaryValue) :
    (laidOut format layout value).toList.all isPrintable := by
  unfold laidOut
  split
  · rename_i negative significand exponent
    have digits : (if significand = 0 then Decimal.zero
        else Decimal.shortest format significand exponent).digits.all isPrintable := by
      split
      · decide
      · exact Decimal.isPrintable_shortest format significand exponent
    rw [String.toList_ofList, List.all_append, plain _ digits]
    cases negative <;> decide
  · decide

theorem isPrintable_choose (number : Double) {positional exponential : String}
    (plain : positional.toList.all isPrintable) (scaled : exponential.toList.all isPrintable) :
    (choose number positional exponential).toList.all isPrintable := by
  unfold choose
  split
  · decide
  · split <;> decide
  · split
    · exact plain
    · rw [String.toList_ofList]
      exact isPrintable_withCapital scaled

end FloatText

theorem isPrintable_doubleText (number : Double) : (doubleText number).toList.all isPrintable :=
  FloatText.isPrintable_choose _
    (FloatText.isPrintable_laidOut _ (fun _ => Decimal.isPrintable_positional) _)
    (FloatText.isPrintable_laidOut _ (fun _ => Decimal.isPrintable_exponential) _)

theorem isPrintable_singleText (number : Single) : (singleText number).toList.all isPrintable :=
  FloatText.isPrintable_choose _
    (FloatText.isPrintable_laidOut _ (fun _ => Decimal.isPrintable_positional) _)
    (FloatText.isPrintable_laidOut _ (fun _ => Decimal.isPrintable_exponential) _)

/-- A number is printed in printable characters. -/
theorem Number.isPrintable_text (number : Number) : number.text.toList.all isPrintable := by
  cases number with
  | whole number => exact isPrintable_toString_int number.value
  | float number => exact isPrintable_singleText number
  | double number => exact isPrintable_doubleText number

end Colloquy
