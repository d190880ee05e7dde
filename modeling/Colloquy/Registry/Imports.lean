import Colloquy.Error
import Colloquy.Table
import Colloquy.Text.Cut

/-!
# Imports

The short names that types were imported under.  A short name never changes its type.
-/

namespace Colloquy

/-- The part of a dotted name behind its last dot. -/
def shortName (qualified : String) : String :=
  String.ofList (Text.lastSegment qualified.toList)

/-- Fully-qualified names by their short names. -/
structure Imports where
  /-- The short names in the order of their import. -/
  names : Table String String := []

namespace Imports

/-- The type that a short name refers to. -/
def get? (imports : Imports) (short : String) : Option String := imports.names.get? short

/-- The imports with one more type.  Importing the same type again changes nothing. -/
def insert (imports : Imports) (qualified : String) : Except RuntimeError Imports :=
  let short := shortName qualified
  match imports.get? short with
  | some existing =>
    if existing = qualified then .ok imports
    else .error (.ambiguousImport short existing qualified)
  | none => .ok ⟨imports.names.put short qualified⟩

end Imports

end Colloquy
