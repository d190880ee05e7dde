import Colloquy.Decimal.Shortest
import Colloquy.Number.Floating

/-!
# Text of floating numbers

Magnitudes from a thousandth up to ten million, and zero, are written positionally; all others
with an exponent behind an `E` and at least one digit after the point.
-/

namespace Colloquy

namespace FloatText

/-- The number is zero or its magnitude lies in the positional range. -/
def isPositional (number : Double) : Bool :=
  let magnitude := number.toFloat.abs
  magnitude == 0 || (0.001 ≤ magnitude && magnitude < 10000000)

/-- An exponential text with `E` for the first `e` and a digit after the point. -/
def withCapital (exponential : List Char) : List Char :=
  let mantissa := exponential.takeWhile (· != 'e')
  let exponent := match exponential.dropWhile (· != 'e') with
    | [] => ['0']
    | _ :: exponent => exponent
  (if '.' ∈ mantissa then mantissa else mantissa ++ ['.', '0']) ++ 'E' :: exponent

/-- The text of a number of which two layouts of the digits are given. -/
def choose (number : Double) (positional exponential : String) : String :=
  match number.value with
  | .nan => "NaN"
  | .infinite negative => if negative then "-Infinity" else "Infinity"
  | .finite .. =>
    if isPositional number then positional
    else String.ofList (withCapital exponential.toList)

/-- A layout of the shortest decimal of a value, with its sign. -/
def laidOut (format : BinaryFormat) (layout : Decimal → List Char) : BinaryValue → String
  | .finite negative significand exponent =>
    let decimal :=
      if significand = 0 then Decimal.zero else Decimal.shortest format significand exponent
    String.ofList ((if negative then ['-'] else []) ++ layout decimal)
  | _ => ""

end FloatText

/-- The text of a 64-bit number. -/
def doubleText (number : Double) : String :=
  let laidOut layout := FloatText.laidOut .double layout number.value
  FloatText.choose number (laidOut Decimal.positional) (laidOut Decimal.exponential)

/-- The text of a 32-bit number, with the digits of its own format. -/
def singleText (number : Single) : String :=
  let laidOut layout := FloatText.laidOut .single layout number.value
  FloatText.choose (.ofSingle number) (laidOut Decimal.positional)
    (laidOut Decimal.exponential)

end Colloquy
