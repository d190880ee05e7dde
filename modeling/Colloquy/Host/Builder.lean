import Colloquy.Host.Object

/-!
# String builders of the host

A string builder is an object whose text can be changed.
-/

namespace Colloquy.Host.Builder

/-- The class of string builders. -/
def className : String := "java.lang.StringBuilder"

/-- A new builder with a text. -/
def ofText (text : String) : HostM Value := do
  let (value, heap) := (← get).allocate className (.builder text)
  set heap
  return value

/-- A new builder without text. -/
def makeEmpty : Native := fun _ => ofText ""

/-- A new builder with the text of a string. -/
def make : Native := fun args => do
  ofText (← stringArgument args 0)

/-- The text of a builder. -/
def textOf (reference : ObjectRef) : HostM String := do
  match (← get).builder? reference with
  | some text => return text
  | none => throw (reference.className ++ " is not a StringBuilder")

/-- Changes the text of the receiver, which is the result. -/
def change (edit : String → String) (args : List Value) : HostM Value := do
  let reference ← objectArgument args 0
  let text ← textOf reference
  modify (·.replace reference (.builder (edit text)))
  return .object reference

/-- Adds the printed form of a value at the end. -/
def append : Native := fun args => do
  let suffix ← printed (← argument args 1)
  change (· ++ suffix) args

/-- The number of characters. -/
def length : Native := fun args => do
  lengthValue (← textOf (← objectArgument args 0)).length

/-- Turns the order of the characters around. -/
def reverse : Native := change fun text => String.ofList text.toList.reverse

/-- The members of string builders. -/
def members : List MemberSpec :=
  [constructorSpec className "()" makeEmpty,
    constructorSpec className "(String)" make,
    instanceSpec className "append" "(Object)" append,
    instanceSpec className "length" "()" length,
    instanceSpec className "reverse" "()" reverse,
    instanceSpec className "toString" "()" Object.toText]

end Colloquy.Host.Builder
