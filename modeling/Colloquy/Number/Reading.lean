import Colloquy.Number.Basic
import Colloquy.Text.Blank
import Colloquy.Text.Cut

/-!
# Reading numbers

Number literals, the texts of whole numbers with an optional sign, and the wider grammar of
floating texts.
-/

namespace Colloquy.Reading

/-- The number with one more decimal digit at its end. -/
def nextDigit (value : Nat) (digit : Char) : Nat := 10 * value + (digit.toNat - '0'.toNat)

/-- The number that decimal digits stand for. -/
def digitsValue (digits : List Char) : Nat := digits.foldl nextDigit 0

/-- The text is one or more decimal digits. -/
def isDigits (text : List Char) : Bool := !text.isEmpty && text.all Char.isDigit

/-- Whether a text starts with a minus sign, and the text without it. -/
def splitMinus : List Char → Bool × List Char
  | '-' :: rest => (true, rest)
  | text => (false, text)

/-- Whether a text starts with a minus sign, and the text without it or a plus sign. -/
def splitSign : List Char → Bool × List Char
  | '-' :: rest => (true, rest)
  | '+' :: rest => (false, rest)
  | text => (false, text)

/-- The integer written by digits behind an optional minus sign. -/
def whole? (text : List Char) : Option Int :=
  let (negative, digits) := splitMinus text
  if isDigits digits then some (BinaryValue.signed negative (digitsValue digits)) else none

/-- A decimal fraction as it is written. -/
structure Fraction where
  /-- The text starts with a minus sign. -/
  negative : Bool
  /-- The digits without the point. -/
  coefficient : Nat
  /-- The power of ten that the coefficient is multiplied by. -/
  exponent : Int

namespace Fraction

/-- The fraction with the digits of its two sides. -/
def ofSides (negative : Bool) (before after : List Char) (exponent : Int) : Fraction :=
  ⟨negative, digitsValue (before ++ after), exponent - after.length⟩

/-- The nearest 64-bit number. -/
def toDouble (fraction : Fraction) : Double :=
  .ofPattern <|
    BinaryFormat.double.encodeDecimal fraction.negative fraction.coefficient fraction.exponent

/-- The nearest 32-bit number. -/
def toSingle (fraction : Fraction) : Single :=
  .ofPattern <|
    BinaryFormat.single.encodeDecimal fraction.negative fraction.coefficient fraction.exponent

end Fraction

/-- The decimal fraction written by digits on both sides of a point, behind an optional minus
sign. -/
def fraction? (text : List Char) : Option Fraction :=
  let (negative, magnitude) := splitMinus text
  match Text.cutAt? ['.'] magnitude with
  | some (before, after) =>
    if isDigits before && isDigits after then some (.ofSides negative before after 0) else none
  | none => none

/-- The text without its last character, if that is the given letter in either case. -/
def withoutLetter? (letter : Char) (text : List Char) : Option (List Char) :=
  match text.getLast? with
  | some final => if final.toLower = letter then some text.dropLast else none
  | none => none

/-- The number that a literal stands for.  Whole numbers take the width of 32 bits if that holds
them, and of 64 bits otherwise or with an `L` behind them; fractions have 64 bits, or 32 bits with
an `f` behind them. -/
def number? (text : List Char) : Option Number :=
  match withoutLetter? 'l' text with
  | some digits => (whole? digits).bind (Number.ofInt? .long)
  | none =>
    match whole? text with
    | some value => Number.ofInt? .int value <|> Number.ofInt? .long value
    | none =>
      match withoutLetter? 'f' text with
      | some decimal => (fraction? decimal).map (.float ·.toSingle)
      | none => (fraction? ((withoutLetter? 'd' text).getD text)).map (.double ·.toDouble)

/-- The whole number of a width written by digits behind an optional sign. -/
def signedWhole? (width : Width) (text : List Char) : Option Whole :=
  let (negative, digits) := splitSign text
  if isDigits digits then
    Whole.ofInt? width (BinaryValue.signed negative (digitsValue digits))
  else none

/-- The number that the digits of an exponent stand for.  Digits behind the one that takes it to
65536 or more do not count. -/
def exponentValue (digits : List Char) : Nat :=
  digits.foldl (fun value digit => if value < 65536 then nextDigit value digit else value) 0

/-- The exponent behind a mantissa: nothing, or an `e` with an optional sign and digits. -/
def exponent? : List Char → Option Int
  | [] => some 0
  | mark :: text =>
    let (negative, digits) := splitSign text
    if mark.toLower = 'e' && isDigits digits then
      some (BinaryValue.signed negative (exponentValue digits))
    else none

/-- The number written by digits with an optional point among or around them, and an optional
exponent. -/
def magnitude? (negative : Bool) (text : List Char) : Option Fraction :=
  let before := text.takeWhile Char.isDigit
  let (after, rest) := match text.dropWhile Char.isDigit with
    | '.' :: rest => (rest.takeWhile Char.isDigit, rest.dropWhile Char.isDigit)
    | rest => ([], rest)
  if before.isEmpty && after.isEmpty then none
  else (exponent? rest).map (.ofSides negative before after)

/-- The 64-bit number that a text stands for: a magnitude behind an optional sign, or the name of
an infinity or of no number in any letter case. -/
def double? (text : List Char) : Option Double :=
  let (negative, unsigned) := splitSign text
  let name := String.ofList (unsigned.map Char.toLower)
  if name = "inf" ∨ name = "infinity" then some (.ofValue (.infinite negative))
  else if name = "nan" then some (.ofValue .nan)
  else (magnitude? negative unsigned).map Fraction.toDouble

end Colloquy.Reading
