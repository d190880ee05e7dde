import Colloquy.Text.Cut
import Colloquy.Value.TypeName

/-!
# Markers

Values that annotate an exchange: lines of information, and checks of the output that a program
produced for it.
-/

namespace Colloquy

/-- A condition on the output of a program. -/
inductive OutputCheck where
  | contains (needle : String)
  | lineCount (expected : Nat)
deriving DecidableEq, Repr

namespace OutputCheck

/-- The type of a check. -/
def typeName : OutputCheck → String
  | contains _ => TypeName.contains
  | lineCount _ => TypeName.lineCount

/-- What the check asks, in a few words. -/
def describe : OutputCheck → String
  | contains needle => "output contains \"" ++ needle ++ "\""
  | lineCount expected => "output has " ++ toString expected ++ " lines"

/-- Why an output fails the check, if it does. -/
def fault? (output : List String) : OutputCheck → Option String
  | contains needle =>
    if output.any fun line => Text.contains line.toList needle.toList then none
    else some ("no line contains \"" ++ needle ++ "\"")
  | lineCount expected =>
    if output.length = expected then none
    else some ("found " ++ toString output.length ++ " lines")

end OutputCheck

/-- An annotation: a line of information, or a check of later output, which its number tells apart
from others. -/
inductive Marker where
  | information (text : String)
  | analyzer (id : Nat) (check : OutputCheck)
deriving Repr

namespace Marker

/-- The type of a marker. -/
def typeName : Marker → String
  | information _ => TypeName.information
  | analyzer _ check => check.typeName

/-- The printed form of a marker. -/
def text : Marker → String
  | information text => text
  | analyzer _ check => check.describe

/-- Information is compared by its text, a check by its identity. -/
def same : Marker → Marker → Bool
  | information left, information right => left = right
  | analyzer left _, analyzer right _ => left = right
  | _, _ => false

/-- The text of a line of information. -/
def information? : Marker → Option String
  | information text => some text
  | analyzer _ _ => none

/-- The check of an analyzer. -/
def check? : Marker → Option OutputCheck
  | information _ => none
  | analyzer _ check => some check

end Marker

end Colloquy
