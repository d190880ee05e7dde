import Colloquy.Number.Kind
import Colloquy.Number.Floating
import Colloquy.Decimal.FloatText

/-!
# Numbers

A number of any kind, its conversions to other kinds, and sums.  A sum is taken in a kind that both
operands reach exactly where there is one.
-/

namespace Colloquy

/-- A number of one of the six kinds. -/
inductive Number where
  | whole (number : Whole)
  | float (number : Single)
  | double (number : Double)
deriving DecidableEq

/-- The integer that a floating number of 64 bits equals, if there is one of 64 bits. -/
def Double.long? (number : Double) : Option Int :=
  number.value.integer?.filter fun integer => Width.long.Holds integer

namespace Number

/-- The kind of a number. -/
def kind : Number → NumKind
  | whole number => .whole number.width
  | float _ => .float
  | double _ => .double

/-- The whole number of a width, if the width holds it. -/
def ofInt? (width : Width) (number : Int) : Option Number :=
  (Whole.ofInt? width number).map whole

/-- The value of a number of a whole kind. -/
def integral? : Number → Option Int
  | whole number => some number.value
  | _ => none

/-- The integer that a number of any kind equals, if there is one. -/
def integer? : Number → Option Int
  | whole number => some number.value
  | float number => number.value.integer?
  | double number => number.value.integer?

/-- The integer of 64 bits that a number equals, if there is one.  A floating number of 32 bits is
widened first. -/
def long? : Number → Option Int
  | whole number => some number.value
  | float number => (Double.ofSingle number).long?
  | double number => number.long?

/-- Equal numbers of the same kind.  No number differs from itself and the zeros are equal. -/
def same : Number → Number → Bool
  | whole left, whole right => left = right
  | float left, float right => left.same right
  | double left, double right => left.same right
  | _, _ => false

/-- The text of a number. -/
def text : Number → String
  | whole number => number.text
  | float number => singleText number
  | double number => doubleText number

/-- The number in a kind that its own kind widens to.  A whole number that has no equal in a
floating kind does not convert. -/
def widen (target : NumKind) (number : Number) : Option Number :=
  if number.kind.widensTo target then
    match target, number with
    | .whole width, whole number => ofInt? width number.value
    | .float, whole number => (Single.ofInt? number.value).map float
    | .float, float number => some (float number)
    | .double, whole number => (Double.ofInt? number.value).map double
    | .double, float number => some (double (.ofSingle number))
    | .double, double number => some (double number)
    | _, _ => none
  else none

/-- The equal number of a kind, narrower ones included, if there is one. -/
def exact : NumKind → Number → Option Number
  | .whole width, number => number.long?.bind (ofInt? width)
  | .float, whole number => (Single.ofInt? number.value).map float
  | .float, float number => some (float number)
  | .float, double number =>
    let narrowed := Single.ofDouble number
    if Double.ofSingle narrowed = number then some (float narrowed) else none
  | .double, whole number => (Double.ofInt? number.value).map double
  | .double, float number => some (double (.ofSingle number))
  | .double, double number => some (double number)

/-- The nearest 64-bit number. -/
def nearestDouble : Number → Double
  | whole number => .ofValue (.ofInt number.value)
  | float number => .ofSingle number
  | double number => number

/-- The number of a kind that is nearest to a number.  Only to a floating kind a number is rounded;
to a whole kind it is converted if it has an equal there. -/
def approximate : NumKind → Number → Option Number
  | .float, double number => some (float (.ofDouble number))
  | .float, number =>
    (number.integral?.map fun integer => float (.ofValue (.ofInt integer))) <|> number.exact .float
  | .double, number =>
    (number.integral?.map fun integer => double (.ofValue (.ofInt integer))) <|>
      number.exact .double
  | kind, number => number.exact kind

/-- Why two numbers have no sum. -/
inductive SumFault where
  | overflow
deriving DecidableEq

/-- Both numbers in a kind, if both have a number there. -/
def both? (convert : NumKind → Number → Option Number) (kind : NumKind) (left right : Number) :
    Option (Number × Number) :=
  match convert kind left, convert kind right with
  | some left, some right => some (left, right)
  | _, _ => none

/-- The numbers that are added in place of two numbers: their equals in the wider kind if both reach
it exactly, else in the narrower kind if both reach that exactly, else the nearest ones of the wider
kind. -/
def operands? (left right : Number) : Option (Number × Number) :=
  let wide := NumKind.promote left.kind right.kind
  let narrow := if wide = left.kind then right.kind else left.kind
  both? exact wide left right <|> both? exact narrow left right <|>
    both? approximate wide left right

/-- The sum of two numbers of the same kind. -/
def sumAlike? : Number → Number → Option (Except SumFault Number)
  | whole left, whole right =>
    if left.width = right.width then
      some ((ofInt? left.width (left.value + right.value)).elim (.error .overflow) .ok)
    else none
  | float left, float right => some (.ok (float (left.add right)))
  | double left, double right => some (.ok (double (left.add right)))
  | _, _ => none

/-- The sum of two numbers, if both are brought to one kind. -/
def add? (left right : Number) : Option (Except SumFault Number) := do
  let (left, right) ← operands? left right
  sumAlike? left right

end Number

end Colloquy
