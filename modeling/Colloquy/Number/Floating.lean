import Colloquy.Number.Binary

/-!
# Floating numbers

The floating numbers of 32 and of 64 bits.  A number is its bit pattern, so that the patterns which
stand for no number stay apart; its value is exact.
-/

namespace Colloquy

/-- A floating number of 32 bits. -/
structure Single where
  /-- The bit pattern. -/
  bits : UInt32
deriving DecidableEq, Repr

/-- A floating number of 64 bits. -/
structure Double where
  /-- The bit pattern. -/
  bits : UInt64
deriving DecidableEq, Repr

/-- A type whose members are the bit patterns of a format. -/
structure Floating (α : Type) where
  format : BinaryFormat
  pattern : α → Nat
  /-- The number of a bit pattern, of which the bits above the sign do not count. -/
  ofPattern : Nat → α
  pattern_ofPattern : ∀ bits, pattern (ofPattern bits) = bits % (2 * format.signBit true)

namespace Floating

variable {α β : Type} (floating : Floating α)

/-- The exact value. -/
def value (number : α) : BinaryValue := floating.format.decode (floating.pattern number)

/-- The number nearest to a value. -/
def ofValue (value : BinaryValue) : α := floating.ofPattern (floating.format.encode value)

/-- The number of another type that is nearest to a number. -/
def convert (target : Floating β) (number : α) : β :=
  target.ofPattern (floating.format.convert target.format (floating.pattern number))

/-- The number equal to an integer, if there is one. -/
def ofInt? (integer : Int) : Option α :=
  let nearest := floating.ofValue (.ofInt integer)
  if (floating.value nearest).integer? = some integer then some nearest else none

end Floating

/-- The numbers of 32 bits. -/
def Single.floating : Floating Single where
  format := .single
  pattern number := number.bits.toNat
  ofPattern pattern := ⟨.ofNat pattern⟩
  pattern_ofPattern _ := UInt32.toNat_ofNat'

/-- The numbers of 64 bits. -/
def Double.floating : Floating Double where
  format := .double
  pattern number := number.bits.toNat
  ofPattern pattern := ⟨.ofNat pattern⟩
  pattern_ofPattern _ := UInt64.toNat_ofNat'

namespace Single

/-- The number of a bit pattern. -/
def ofPattern (pattern : Nat) : Single := floating.ofPattern pattern

/-- The exact value. -/
def value (number : Single) : BinaryValue := floating.value number

/-- The number nearest to a value. -/
def ofValue (value : BinaryValue) : Single := floating.ofValue value

/-- The number nearest to a number of 64 bits. -/
def ofDouble (number : Double) : Single := Double.floating.convert floating number

/-- The number equal to an integer, if there is one. -/
def ofInt? (integer : Int) : Option Single := floating.ofInt? integer

/-- The number for arithmetic. -/
def toFloat (number : Single) : Float32 := .ofBits number.bits

/-- The numbers are equal; no number differs from itself, and the zeros are equal. -/
def same (left right : Single) : Bool := left.toFloat == right.toFloat

/-- The rounded sum. -/
def add (left right : Single) : Single := ⟨(left.toFloat + right.toFloat).toBits⟩

end Single

namespace Double

/-- The number of a bit pattern. -/
def ofPattern (pattern : Nat) : Double := floating.ofPattern pattern

/-- The exact value. -/
def value (number : Double) : BinaryValue := floating.value number

/-- The number nearest to a value. -/
def ofValue (value : BinaryValue) : Double := floating.ofValue value

/-- The number equal to a number of 32 bits. -/
def ofSingle (number : Single) : Double := Single.floating.convert floating number

/-- The number equal to an integer, if there is one. -/
def ofInt? (integer : Int) : Option Double := floating.ofInt? integer

/-- The number for arithmetic. -/
def toFloat (number : Double) : Float := .ofBits number.bits

/-- The pattern stands for no number. -/
def isNaN (number : Double) : Bool := number.value = .nan

/-- The result of arithmetic on operands.  Where it is no number, it keeps the pattern of the first
operand that is none, with the first bit of the fraction set. -/
def ofResult (operands : List Double) (result : Float) : Double :=
  if result.isNaN then
    match operands.find? isNaN with
    | some operand => ofPattern (BinaryFormat.double.convert .double operand.bits.toNat)
    | none => ⟨result.toBits⟩
  else ⟨result.toBits⟩

/-- The numbers are equal; no number differs from itself, and the zeros are equal. -/
def same (left right : Double) : Bool := left.toFloat == right.toFloat

/-- The left number is the lesser one; no number is neither lesser nor greater than another. -/
def less (left right : Double) : Bool := left.toFloat < right.toFloat

/-- The number without its sign. -/
def abs (number : Double) : Double :=
  ofPattern (number.bits.toNat % BinaryFormat.double.signBit true)

/-- The rounded sum. -/
def add (left right : Double) : Double :=
  ofResult [left, right] (left.toFloat + right.toFloat)

end Double

end Colloquy
