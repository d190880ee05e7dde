import Colloquy.Number.Reading
import Colloquy.Value.Basic

/-!
# Literals

The value of a stretch of text that no structure was found in: quoted text, a variable, a keyword,
a number, or the text itself.
-/

namespace Colloquy.Literal

/-- The value of text that names no variable. -/
def ofText (text : String) : Value :=
  if text = "true" then .bool true
  else if text = "false" then .bool false
  else if text = "null" then .null
  else match Reading.number? text.toList with
    | some number => .number number
    | none => .str text

/-- The text between one pair of double quotes. -/
def unquote? : List Char → Option (List Char)
  | '"' :: rest => if rest.getLast? = some '"' then some rest.dropLast else none
  | _ => none

/-- The value of a stretch of text, if it is not blank.  Quoted text is taken as it stands; other
text is a variable or a literal. -/
def resolve (lookup : String → Option Value) (raw : String) : Option Value :=
  let text := Text.trim raw.toList
  if text = [] then none
  else match unquote? text with
    | some inner => some (.str (String.ofList inner))
    | none =>
      let name := String.ofList text
      some ((lookup name).getD (ofText name))

end Colloquy.Literal
