import Colloquy.Host.Arguments
import Colloquy.Number.Reading

/-!
# Numbers of the host

Reading numbers from strings, conversions between kinds, and the functions of `Math`.
-/

namespace Colloquy.Host.Numbers

/-- The class of mathematical functions. -/
def mathName : String := "java.lang.Math"

/-- The number that a string stands for. -/
def reading (read? : List Char → Option Number) : Native := fun args => do
  let text ← stringArgument args 0
  match read? text.toList with
  | some number => return .number number
  | none => throw ("For input string: \"" ++ text ++ "\"")

/-- The whole number of a width that a string stands for. -/
def parseWhole (width : Width) : Native :=
  reading fun text => (Reading.signedWhole? width text).map .whole

/-- The floating number that a string stands for, without the blanks at its ends. -/
def parseDouble : Native :=
  reading fun text => (Reading.double? (Text.trim text)).map .double

/-- The same 32-bit number. -/
def intIdentity : Native := fun args => return intValue (← intArgument args 0)

/-- The decimal text of a 32-bit number. -/
def intText : Native := fun args => return .str (toString (← intArgument args 0))

/-- The sum of two 32-bit numbers, if it fits. -/
def intSum : Native := fun args => do
  let left ← intArgument args 0
  let right ← intArgument args 1
  match Value.int? (left + right) with
  | some sum => return sum
  | none => throw ("integer overflow: " ++ toString left ++ " + " ++ toString right)

/-- The number at a place. -/
def numberArgument : List Value → Nat → HostM Number :=
  readArgument Value.number? fun value => value.typeName ++ " is not a number"

/-- The number in a whole width.  Whole numbers keep their low bits; floating ones are cut toward
zero, and the nearest bound stands for those out of range. -/
def toWhole (width : Width) : Number → Whole
  | .whole number => .wrapping width number.value
  | .float number =>
    .saturating width (number.value.truncate width.least width.greatest)
  | .double number =>
    .saturating width (number.value.truncate width.least width.greatest)

/-- The number in a whole width. -/
def wholeOf (width : Width) : Native := fun args => do
  return .number (.whole (toWhole width (← numberArgument args 0)))

/-- The nearest 64-bit floating number. -/
def doubleOf : Native := fun args => do
  return doubleValue (← numberArgument args 0).nearestDouble

/-- The greater of two floating numbers.  A number is preferred to no number, and the second of two
equal ones to the first. -/
def greater (left right : Double) : Double :=
  if right.isNaN || right.less left then left else right

/-- The lesser of two floating numbers, with the same preferences. -/
def lesser (left right : Double) : Double :=
  if right.isNaN || left.less right then left else right

/-- The rounded power. -/
def power (base exponent : Double) : Double :=
  .ofResult [base, exponent] (base.toFloat.pow exponent.toFloat)

/-- The rounded square root. -/
def squareRoot (number : Double) : Double := .ofResult [number] number.toFloat.sqrt

/-- A function of two arguments of one form. -/
def onTwo {α : Type} (read : List Value → Nat → HostM α) (result : α → Value)
    (function : α → α → α) : Native := fun args => do
  return result (function (← read args 0) (← read args 1))

/-- A function of two 32-bit numbers that fits them. -/
def onInts : (Int → Int → Int) → Native := onTwo intArgument intValue

/-- A function of two 64-bit numbers that fits them. -/
def onLongs : (Int → Int → Int) → Native := onTwo longArgument longValue

/-- A function of two floating numbers. -/
def onDoubles : (Double → Double → Double) → Native := onTwo doubleArgument doubleValue

/-- A function of one floating number. -/
def onDouble (function : Double → Double) : Native := fun args => do
  return doubleValue (function (← doubleArgument args 0))

/-- The magnitude of a 32-bit number; the least number, which has none, is kept. -/
def absInt : Native := fun args => do
  return intValue (← intArgument args 0).natAbs

/-- The members of numbers and of their classes. -/
def members : List MemberSpec :=
  let integer := TypeName.boxed (.whole .int)
  [staticSpec integer "parseInt" "(String)" (parseWhole .int),
    staticSpec integer "valueOf" "(int)" intIdentity,
    staticSpec integer "valueOf" "(String)" (parseWhole .int),
    staticSpec integer "toString" "(int)" intText,
    staticSpec integer "sum" "(int, int)" intSum,
    staticSpec (TypeName.boxed (.whole .long)) "parseLong" "(String)" (parseWhole .long),
    staticSpec (TypeName.boxed .double) "parseDouble" "(String)" parseDouble,
    instanceSpec TypeName.number "intValue" "()" (wholeOf .int),
    instanceSpec TypeName.number "longValue" "()" (wholeOf .long),
    instanceSpec TypeName.number "doubleValue" "()" doubleOf,
    staticSpec mathName "max" "(int, int)" (onInts max),
    staticSpec mathName "max" "(long, long)" (onLongs max),
    staticSpec mathName "max" "(double, double)" (onDoubles greater),
    staticSpec mathName "min" "(int, int)" (onInts min),
    staticSpec mathName "min" "(long, long)" (onLongs min),
    staticSpec mathName "min" "(double, double)" (onDoubles lesser),
    staticSpec mathName "abs" "(int)" absInt,
    staticSpec mathName "abs" "(double)" (onDouble Double.abs),
    staticSpec mathName "pow" "(double, double)" (onDoubles power),
    staticSpec mathName "sqrt" "(double)" (onDouble squareRoot)]

end Colloquy.Host.Numbers
