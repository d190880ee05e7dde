import Colloquy.Host.Arguments
import Colloquy.Text.Blank
import Colloquy.Text.Cut
import Colloquy.Text.LetterCase

/-!
# Strings of the host

Lengths and indices of strings count characters.
-/

namespace Colloquy.Host.Strings

/-- A function of the characters of a string. -/
def mapped (change : List Char → List Char) : Native := fun args => do
  return .str (String.ofList (change (← stringArgument args 0).toList))

/-- A copy of a string. -/
def make : Native := mapped id

/-- The number of characters. -/
def length : Native := fun args => do
  lengthValue (← stringArgument args 0).length

/-- Two strings one after the other. -/
def concat : Native := fun args => do
  return .str ((← stringArgument args 0) ++ (← stringArgument args 1))

/-- The character at an index. -/
def charAt : Native := fun args => do
  let text ← stringArgument args 0
  let index ← intArgument args 1
  let place ← indexBelow index text.length
  return .char (text.toList.getD place ' ')

/-- The characters of a text from one index up to another one. -/
def slice (text : String) (first last : Int) : HostM Value :=
  if 0 ≤ first ∧ first ≤ last ∧ last ≤ text.length then
    return .str (String.ofList ((text.toList.take last.toNat).drop first.toNat))
  else
    throw ("begin " ++ toString first ++ ", end " ++ toString last ++ ", length "
      ++ toString text.length)

/-- The characters from an index on. -/
def substringFrom : Native := fun args => do
  let text ← stringArgument args 0
  match Whole.ofInt? .int text.length with
  | some last => slice text (← intArgument args 1) last.value
  | none => throw "out of range integral type conversion attempted"

/-- The characters from one index up to another one. -/
def substring : Native := fun args => do
  let text ← stringArgument args 0
  slice text (← intArgument args 1) (← intArgument args 2)

/-- A printed form occurs in a string. -/
def contains : Native := fun args => do
  let needle ← argument args 1
  if needle.isNull then throw "contains(null)"
  let needle ← printed needle
  return .bool (Text.contains (← stringArgument args 0).toList needle.toList)

/-- The string has no characters. -/
def isEmpty : Native := fun args => do
  return .bool (← stringArgument args 0).isEmpty

/-- A text several times over; the empty text stays empty, however often it is taken. -/
def repeated (text : List Char) (count : Nat) : List Char :=
  if text.isEmpty then [] else (List.replicate count text).flatten

/-- A string several times over. -/
def repeatText : Native := fun args => do
  let count ← intArgument args 1
  if count < 0 then throw ("count is negative: " ++ toString count)
  let text ← stringArgument args 0
  return .str (String.ofList (repeated text.toList count.toNat))

/-- The printed form of a value. -/
def valueOf : Native := fun args => do
  return .str (← printed (← argument args 0))

/-- The printed forms of the items of an array, with a separator between them. -/
def join : Native := fun args => do
  let separator ← printed (← argument args 0)
  match ← argument args 1 with
  | .array items => return .str (separator.intercalate (← items.mapM printed))
  | _ => throw "expected elements to join"

/-- The members of strings. -/
def members : List MemberSpec :=
  [constructorSpec TypeName.string "(String)" make,
    instanceSpec TypeName.string "length" "()" length,
    instanceSpec TypeName.string "toUpperCase" "()" (mapped Text.upperCase),
    instanceSpec TypeName.string "toLowerCase" "()" (mapped Text.lowerCase),
    instanceSpec TypeName.string "trim" "()" (mapped Text.trim),
    instanceSpec TypeName.string "concat" "(String)" concat,
    instanceSpec TypeName.string "charAt" "(int)" charAt,
    instanceSpec TypeName.string "substring" "(int)" substringFrom,
    instanceSpec TypeName.string "substring" "(int, int)" substring,
    instanceSpec TypeName.string "contains" "(CharSequence)" contains,
    instanceSpec TypeName.string "isEmpty" "()" isEmpty,
    instanceSpec TypeName.string "repeat" "(int)" repeatText,
    staticSpec TypeName.string "valueOf" "(Object)" valueOf,
    staticSpec TypeName.string "join" "(CharSequence, Object...)" join]

end Colloquy.Host.Strings
