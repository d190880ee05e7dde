import Colloquy.Number.Binary

/-!
# Shortest decimals

The decimal with the fewest digits among those that round to a given binary number.  Among
decimals of that length the nearest is taken, and of two equally near ones the greater.
-/

namespace Colloquy

/-- The number `0.d₁d₂… * 10 ^ point` by its digits, the last of which is not zero. -/
structure Decimal where
  /-- Digit characters, the first one leading. -/
  digits : List Char
  /-- Where the decimal point stands, counted from the first digit. -/
  point : Int
deriving DecidableEq, Repr

namespace Decimal

/-- Zero is one digit before the point. -/
def zero : Decimal := ⟨['0'], 1⟩

/-- The decimal `coefficient * 10 ^ exponent` without trailing zeros. -/
def ofScaled (coefficient : Nat) (exponent : Int) : Decimal :=
  let digits := Nat.toDigits 10 coefficient
  ⟨(digits.reverse.dropWhile (· == '0')).reverse, digits.length + exponent⟩

/-- The numbers that round to one binary number, as numerators over a common denominator. -/
structure Interval where
  /-- Numerator of the lower end. -/
  low : Nat
  /-- Numerator of the binary number itself. -/
  value : Nat
  /-- Numerator of the upper end. -/
  high : Nat
  /-- Common denominator. -/
  denominator : Nat
  /-- The ends belong to the interval. -/
  closed : Bool

namespace Interval

/-- The interval of `significand * 2 ^ exponent`.  Below a power of two numbers lie twice as
dense, and an even significand takes both ends. -/
def ofBinary (format : BinaryFormat) (significand : Nat) (exponent : Int) : Interval :=
  let narrow : Bool := significand = format.fractions ∧ format.leastExponent < exponent
  let low := if narrow then 4 * significand - 1 else 4 * significand - 2
  let closed : Bool := significand % 2 = 0
  match exponent - 2 with
  | .ofNat power =>
    let unit := Nat.pow 2 power
    ⟨low * unit, 4 * significand * unit, (4 * significand + 2) * unit, 1, closed⟩
  | .negSucc power =>
    ⟨low, 4 * significand, 4 * significand + 2, Nat.pow 2 (power + 1), closed⟩

/-- The same interval in units of a power of ten. -/
def inUnits (interval : Interval) : Int → Interval
  | .ofNat power => { interval with denominator := interval.denominator * Nat.pow 10 power }
  | .negSucc power =>
    let factor := Nat.pow 10 (power + 1)
    { interval with
      low := interval.low * factor
      value := interval.value * factor
      high := interval.high * factor }

/-- A whole number of units lies in the interval. -/
def holds (interval : Interval) (units : Nat) : Bool :=
  let scaled := units * interval.denominator
  if interval.closed then interval.low ≤ scaled && scaled ≤ interval.high
  else interval.low < scaled && scaled < interval.high

/-- The number of units in the interval that is nearest to the value.  Only the two neighbours of
the value need a look, and the greater one wins a tie. -/
def nearest? (interval : Interval) : Option Nat :=
  let below := interval.value / interval.denominator
  let rest := interval.value % interval.denominator
  match interval.holds below, interval.holds (below + 1) with
  | true, true => some (if 2 * rest < interval.denominator then below else below + 1)
  | true, false => some below
  | false, true => some (below + 1)
  | false, false => none

/-- The number of digits before the decimal point, or minus the number of zeros after it. -/
def magnitude (interval : Interval) : Int :=
  if interval.denominator ≤ interval.value then
    (Nat.toDigits 10 (interval.value / interval.denominator)).length
  else
    1 - ((Nat.toDigits 10 ((interval.denominator - 1) / interval.value)).length : Int)

end Interval

/-- The shortest decimal of a positive binary number, tried with one digit, two digits, and so on;
seventeen digits are enough for both machine formats. -/
def shortest (format : BinaryFormat) (significand : Nat) (exponent : Int) : Decimal :=
  let interval := Interval.ofBinary format significand exponent
  let found := (List.range 17).findSome? fun count : Nat =>
    let unit : Int := interval.magnitude - (count + 1)
    ((interval.inUnits unit).nearest?).map fun units => ofScaled units unit
  found.getD zero

/-- Digits with a point in their place and at least one digit on either side of it. -/
def positional (decimal : Decimal) : List Char :=
  match decimal.point with
  | .negSucc zeros =>
    '0' :: '.' :: List.replicate (zeros + 1) '0' ++ decimal.digits
  | .ofNat 0 => '0' :: '.' :: decimal.digits
  | .ofNat place =>
    if decimal.digits.length ≤ place then
      decimal.digits ++ List.replicate (place - decimal.digits.length) '0' ++ ['.', '0']
    else
      decimal.digits.take place ++ '.' :: decimal.digits.drop place

/-- One digit before the point, the others after it, and the exponent behind an `e`. -/
def exponential (decimal : Decimal) : List Char :=
  let fraction := match decimal.digits.drop 1 with
    | [] => []
    | rest => '.' :: rest
  decimal.digits.take 1 ++ fraction ++ 'e' :: (toString (decimal.point - 1)).toList

end Decimal

end Colloquy
