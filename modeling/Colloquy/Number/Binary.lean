/-!
# Binary floating numbers

The exact value of a bit pattern, and the bit pattern nearest to a quotient of two natural
numbers, in integer arithmetic.  A tie goes to the even significand.
-/

namespace Colloquy

/-- What a floating bit pattern stands for; a finite number is `significand * 2 ^ exponent` with a
sign. -/
inductive BinaryValue where
  | nan
  | infinite (negative : Bool)
  | finite (negative : Bool) (significand : Nat) (exponent : Int)
deriving DecidableEq, Repr

namespace BinaryValue

/-- The integer that a sign and a magnitude stand for. -/
def signed (negative : Bool) (magnitude : Nat) : Int :=
  if negative then -magnitude else magnitude

/-- The value as an integer, if it is one. -/
def integer? : BinaryValue → Option Int
  | finite negative significand (.ofNat exponent) =>
    some (signed negative (significand * Nat.pow 2 exponent))
  | finite negative significand (.negSucc exponent) =>
    let unit := Nat.pow 2 (exponent + 1)
    if significand % unit = 0 then some (signed negative (significand / unit)) else none
  | _ => none

/-- The value rounded toward zero, with infinities sent to the given bounds and no number to 0. -/
def truncate (least greatest : Int) : BinaryValue → Int
  | nan => 0
  | infinite negative => if negative then least else greatest
  | finite negative significand (.ofNat exponent) =>
    signed negative (significand * Nat.pow 2 exponent)
  | finite negative significand (.negSucc exponent) =>
    signed negative (significand / Nat.pow 2 (exponent + 1))

end BinaryValue

/-- A floating format: the bits of the significand, its leading one included, and of the
exponent. -/
structure BinaryFormat where
  /-- Bits of the significand. -/
  precision : Nat
  /-- Bits of the exponent. -/
  exponentBits : Nat

namespace BinaryFormat

/-- The format of 32 bits. -/
def single : BinaryFormat := ⟨24, 8⟩

/-- The format of 64 bits. -/
def double : BinaryFormat := ⟨53, 11⟩

variable (format : BinaryFormat)

/-- The number of bit patterns that share sign and exponent. -/
def fractions : Nat := Nat.pow 2 (format.precision - 1)

/-- The exponent field of infinities and of no number. -/
def topField : Nat := Nat.pow 2 format.exponentBits - 1

/-- The exponent of the smallest positive number. -/
def leastExponent : Int := 3 - Nat.pow 2 (format.exponentBits - 1) - format.precision

/-- The pattern of the positive infinity; greater patterns are no numbers. -/
def infinity : Nat := format.topField * format.fractions

/-- The topmost bit, which is set in the patterns of negative numbers. -/
def signBit (negative : Bool) : Nat :=
  if negative then format.fractions * Nat.pow 2 format.exponentBits else 0

/-- The topmost bit is set. -/
def isNegative (bits : Nat) : Bool :=
  bits / format.fractions / Nat.pow 2 format.exponentBits % 2 = 1

/-- The exact value of a bit pattern. -/
def decode (bits : Nat) : BinaryValue :=
  let fraction := bits % format.fractions
  let field := bits / format.fractions % Nat.pow 2 format.exponentBits
  let negative := format.isNegative bits
  if field = format.topField then
    if fraction = 0 then .infinite negative else .nan
  else if field = 0 then
    .finite negative fraction format.leastExponent
  else
    .finite negative (format.fractions + fraction) (format.leastExponent + (field - 1))

/-- The integer nearest to a quotient; of two, the even one. -/
def roundQuotient (numerator denominator : Nat) : Nat :=
  let quotient := numerator / denominator
  let remainder := numerator % denominator
  if 2 * remainder < denominator then quotient
  else if denominator < 2 * remainder then quotient + 1
  else quotient + quotient % 2

/-- The quotient divided by a power of two, rounded. -/
def roundScaled (numerator denominator : Nat) : Int → Nat
  | .ofNat exponent => roundQuotient numerator (denominator * Nat.pow 2 exponent)
  | .negSucc exponent => roundQuotient (numerator * Nat.pow 2 (exponent + 1)) denominator

/-- The exponent at which the rounded quotient has as many bits as the format keeps. -/
def exponentOf (numerator denominator : Nat) : Int :=
  let low : Int := (numerator.log2 : Int) - denominator.log2 - format.precision
  let scaled := match low with
    | .ofNat exponent => numerator / (denominator * Nat.pow 2 exponent)
    | .negSucc exponent => numerator * Nat.pow 2 (exponent + 1) / denominator
  let fitsLow : Bool := scaled < Nat.pow 2 format.precision
  max format.leastExponent (if fitsLow then low else low + 1)

/-- The pattern of the number nearest to a quotient, an infinity beyond the greatest number. -/
def encodeQuotient (negative : Bool) (numerator denominator : Nat) : Nat :=
  let sign := format.signBit negative
  if numerator = 0 then sign
  else
    let exponent := format.exponentOf numerator denominator
    let steps := (exponent - format.leastExponent).toNat
    let pattern := steps * format.fractions + roundScaled numerator denominator exponent
    sign + min pattern format.infinity

/-- The pattern nearest to a value of any format. -/
def encode : BinaryValue → Nat
  | .nan => format.infinity + format.fractions / 2
  | .infinite negative => format.signBit negative + format.infinity
  | .finite negative significand (.ofNat exponent) =>
    format.encodeQuotient negative (significand * Nat.pow 2 exponent) 1
  | .finite negative significand (.negSucc exponent) =>
    format.encodeQuotient negative significand (Nat.pow 2 (exponent + 1))

/-- The pattern nearest to `digits * 10 ^ exponent`. -/
def encodeDecimal (negative : Bool) (digits : Nat) : Int → Nat
  | .ofNat power => format.encodeQuotient negative (digits * Nat.pow 10 power) 1
  | .negSucc power => format.encodeQuotient negative digits (Nat.pow 10 (power + 1))

/-- The pattern in another format that is nearest to a pattern.  A pattern of no number keeps its
sign and the leading bits of its fraction, of which the first one is set. -/
def convert (source target : BinaryFormat) (bits : Nat) : Nat :=
  match source.decode bits with
  | .nan =>
    let fraction := bits % source.fractions * target.fractions / source.fractions
    let quiet := target.fractions / 2
    target.signBit (source.isNegative bits) + target.infinity + quiet + fraction % quiet
  | value => target.encode value

end BinaryFormat

namespace BinaryValue

/-- An integer as a binary value. -/
def ofInt (number : Int) : BinaryValue := .finite (number < 0) number.natAbs 0

end BinaryValue

end Colloquy
