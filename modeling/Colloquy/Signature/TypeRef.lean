import Colloquy.Number.Kind
import Colloquy.Text.Alphanumeric
import Colloquy.Text.Blank

/-!
# Types of parameters and results

A type is a primitive, a class by its fully-qualified name, or an array.  Written names are
resolved by a resolver, which may remember what it was asked.
-/

namespace Colloquy

/-- A primitive type. -/
inductive Primitive where
  | boolean
  | char
  | numeric (kind : NumKind)
deriving DecidableEq, Repr

namespace Primitive

/-- The word that a primitive type is written as. -/
def keyword : Primitive → String
  | boolean => "boolean"
  | char => "char"
  | numeric kind => kind.keyword

/-- The primitive type that a word names. -/
def ofKeyword? (word : String) : Option Primitive :=
  if word = "boolean" then some boolean
  else if word = "char" then some char
  else (NumKind.ofKeyword? word).map numeric

@[simp]
theorem ofKeyword?_keyword (type : Primitive) : ofKeyword? type.keyword = some type := by
  rcases type with _ | _ | ((_ | _ | _ | _) | _ | _) <;> decide

end Primitive

/-- The type of a parameter or a result. -/
inductive TypeRef where
  | primitive (type : Primitive)
  | named (name : String)
  | array (element : TypeRef)
deriving DecidableEq, Repr

/-- A way to find the fully-qualified name that a written name refers to.  What the resolver
remembers survives a name that it does not find. -/
abbrev Resolver (memory : Type) := String → StateM memory (Option String)

namespace TypeRef

/-- The text of a type. -/
def text : TypeRef → String
  | primitive type => type.keyword
  | named name => name
  | array element => element.text ++ "[]"

/-- An array of arrays of the given depth. -/
def nested (element : TypeRef) : Nat → TypeRef
  | 0 => element
  | depth + 1 => array (nested element depth)

/-- A character of a type name. -/
def isNameChar (c : Char) : Bool :=
  Text.isAlphanumeric c || c == '_' || c == '.' || c == '$'

/-- The number of bracket pairs at the end of a written type, and the text before them.  Both
texts run from the end to the start. -/
def splitArrays : List Char → Nat × List Char
  | ']' :: '[' :: rest =>
    let (depth, element) := splitArrays rest
    (depth + 1, element)
  | c :: rest => if Text.isBlank c then splitArrays rest else (0, c :: rest)
  | [] => (0, [])

/-- The type of a name without brackets. -/
def ofName? {memory : Type} (resolve : Resolver memory) (name : List Char) :
    StateM memory (Option TypeRef) :=
  if name.isEmpty || !name.all isNameChar then return none
  else
    let word := String.ofList name
    match Primitive.ofKeyword? word with
    | some type => return some (primitive type)
    | none => return (← resolve word).map named

/-- The type that a text stands for, if its name can be resolved. -/
def parse? {memory : Type} (resolve : Resolver memory) (text : List Char) :
    StateM memory (Option TypeRef) := do
  let (depth, reversed) := splitArrays text.reverse
  return (← ofName? resolve (Text.trimStart reversed.reverse)).map (·.nested depth)

end TypeRef

end Colloquy
