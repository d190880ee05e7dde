import Colloquy.Host.Arguments

/-!
# Objects of the host

What every object can do.
-/

namespace Colloquy.Host.Object

/-- A new plain object. -/
def make : Native := fun _ => do
  let (value, heap) := (← get).allocatePlain
  set heap
  return value

/-- The printed form of a value. -/
def toText : Native := fun args => do
  return .str (← printed (← argument args 0))

/-- Equality of two values. -/
def equals : Native := fun args => do
  let left ← argument args 0
  let right ← argument args 1
  return .bool (left.same right)

/-- The members of objects. -/
def members : List MemberSpec :=
  [constructorSpec TypeName.object "()" make,
    instanceSpec TypeName.object "toString" "()" toText,
    instanceSpec TypeName.object "equals" "(Object)" equals]

end Colloquy.Host.Object
