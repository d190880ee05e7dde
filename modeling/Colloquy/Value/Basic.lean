import Colloquy.Number.Basic
import Colloquy.Value.Marker

/-!
# Values

What literals, calls and sums produce.  An object is a reference into the heap; its class never
changes and is part of the reference.
-/

namespace Colloquy

/-- A reference to an object of the heap. -/
structure ObjectRef where
  /-- The place of the object in the heap. -/
  id : Nat
  /-- The fully-qualified class the object was made as. -/
  className : String
deriving DecidableEq, Repr

/-- A value. -/
inductive Value where
  | null
  | bool (truth : Bool)
  | char (character : Char)
  | number (num : Number)
  | str (text : String)
  | array (items : List Value)
  | object (reference : ObjectRef)
  | marker (mark : Marker)

namespace Value

instance : Inhabited Value := ⟨null⟩

/-- The fully-qualified type of a value, under which operations on it are looked up. -/
def typeName : Value → String
  | null => TypeName.null
  | bool _ => TypeName.boolean
  | char _ => TypeName.character
  | number num => TypeName.boxed num.kind
  | str _ => TypeName.string
  | array _ => TypeName.array
  | object reference => reference.className
  | marker mark => mark.typeName

/-- A whole number of 32 bits, if it fits. -/
def int? (integer : Int) : Option Value := (Number.ofInt? .int integer).map number

/-- The number of a numeric value. -/
def number? : Value → Option Number
  | number num => some num
  | _ => none

/-- The whole number of a numeric value of the width. -/
def whole? (width : Width) : Value → Option Int
  | number (.whole num) => if num.width = width then some num.value else none
  | _ => none

/-- The 64-bit floating number of a numeric value. -/
def double? : Value → Option Double
  | number (.double num) => some num
  | _ => none

/-- The text of a string value. -/
def str? : Value → Option String
  | str text => some text
  | _ => none

/-- The reference of an object value. -/
def object? : Value → Option ObjectRef
  | object reference => some reference
  | _ => none

/-- The value is the absent reference. -/
def isNull : Value → Bool
  | null => true
  | _ => false

mutual

/-- Equality of values: objects by identity, arrays item by item, all others by content. -/
def same : Value → Value → Bool
  | null, null => true
  | bool left, bool right => left = right
  | char left, char right => left = right
  | number left, number right => left.same right
  | str left, str right => left = right
  | array left, array right => sameItems left right
  | object left, object right => left.id = right.id
  | marker left, marker right => left.same right
  | _, _ => false

/-- Equality of lists of values, item by item. -/
def sameItems : List Value → List Value → Bool
  | [], [] => true
  | left :: lefts, right :: rights => same left right && sameItems lefts rights
  | _, _ => false

end

end Value

end Colloquy
