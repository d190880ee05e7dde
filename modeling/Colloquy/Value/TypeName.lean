import Colloquy.Number.Kind

/-!
# Names of the value types

The fully-qualified names under which values are dispatched.
-/

namespace Colloquy.TypeName

/-- The root of the type hierarchy. -/
def object : String := "java.lang.Object"

/-- Strings. -/
def string : String := "java.lang.String"

/-- Everything that reads as a sequence of characters. -/
def charSequence : String := "java.lang.CharSequence"

/-- Truth values. -/
def boolean : String := "java.lang.Boolean"

/-- Characters. -/
def character : String := "java.lang.Character"

/-- Numbers of every kind. -/
def number : String := "java.lang.Number"

/-- Arrays of packed arguments. -/
def array : String := "java.lang.Object[]"

/-- The absent reference. -/
def null : String := "null"

/-- Numbers of one kind. -/
def boxed : NumKind → String
  | .whole .byte => "java.lang.Byte"
  | .whole .short => "java.lang.Short"
  | .whole .int => "java.lang.Integer"
  | .whole .long => "java.lang.Long"
  | .float => "java.lang.Float"
  | .double => "java.lang.Double"

/-- Information attached to an exchange. -/
def information : String := "interplay.Info"

/-- The check that the output contains a text. -/
def contains : String := "interplay.Contains"

/-- The check on the number of output lines. -/
def lineCount : String := "interplay.LineCount"

end Colloquy.TypeName
