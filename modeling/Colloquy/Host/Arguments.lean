import Colloquy.Catalog.Basic
import Colloquy.Value.Display

/-!
# Arguments of host functions

Each function states what it expects of an argument and fails with a message otherwise.
-/

namespace Colloquy.Host

/-- The argument at a place. -/
def argument (args : List Value) (index : Nat) : HostM Value :=
  match args[index]? with
  | some value => return value
  | none => throw ("missing argument " ++ toString (index + 1))

/-- What a reader makes of the argument at a place, or a message about the argument. -/
def readArgument {α : Type} (read : Value → Option α) (message : Value → String)
    (args : List Value) (index : Nat) : HostM α := do
  let value ← argument args index
  match read value with
  | some result => return result
  | none => throw (message value)

/-- The message about a value of another type than expected. -/
def mismatch (expected : String) (value : Value) : String :=
  "expected " ++ expected ++ ", found " ++ value.typeName

/-- The string at a place. -/
def stringArgument : List Value → Nat → HostM String :=
  readArgument Value.str? (mismatch "a string")

/-- The 32-bit whole number at a place. -/
def intArgument : List Value → Nat → HostM Int :=
  readArgument (Value.whole? .int) (mismatch "an int")

/-- The 64-bit whole number at a place. -/
def longArgument : List Value → Nat → HostM Int :=
  readArgument (Value.whole? .long) (mismatch "a long")

/-- The 64-bit floating number at a place. -/
def doubleArgument : List Value → Nat → HostM Double :=
  readArgument Value.double? (mismatch "a double")

/-- The object at a place. -/
def objectArgument : List Value → Nat → HostM ObjectRef :=
  readArgument Value.object? (mismatch "an object")

/-- The printed form of a value. -/
def printed (value : Value) : HostM String := return value.text (← get)

/-- A length as a 32-bit number. -/
def lengthValue (length : Nat) : HostM Value :=
  match Value.int? length with
  | some value => return value
  | none => throw (toString length ++ " exceeds the int range")

/-- A 32-bit number that is known to fit. -/
def intValue (number : Int) : Value := .number (.whole (.wrapping .int number))

/-- A 64-bit number that is known to fit. -/
def longValue (number : Int) : Value := .number (.whole (.wrapping .long number))

/-- A 64-bit floating number. -/
def doubleValue (number : Double) : Value := .number (.double number)

/-- An index below a length. -/
def indexBelow (index : Int) (length : Nat) : HostM Nat :=
  if 0 ≤ index ∧ index < length then return index.toNat
  else throw ("Index " ++ toString index ++ " out of bounds for length " ++ toString length)

/-- A host member before its signature is parsed. -/
structure MemberSpec where
  /-- The role on the type. -/
  kind : MemberKind
  /-- The fully-qualified type. -/
  typeName : String
  /-- The name, none for constructors. -/
  name : Option String
  /-- The parameters as they are written. -/
  signature : String
  /-- The function. -/
  run : Native

/-- A constructor. -/
def constructorSpec (typeName signature : String) (run : Native) : MemberSpec :=
  ⟨.constructor, typeName, none, signature, run⟩

/-- A static member. -/
def staticSpec (typeName name signature : String) (run : Native) : MemberSpec :=
  ⟨.static, typeName, some name, signature, run⟩

/-- An instance member. -/
def instanceSpec (typeName name signature : String) (run : Native) : MemberSpec :=
  ⟨.method, typeName, some name, signature, run⟩

end Colloquy.Host
