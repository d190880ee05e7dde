/-!
# Settings

What a host chooses before it loads documents.
-/

namespace Colloquy

/-- The choices of a host. -/
structure Settings where
  /-- The packages that short type names are looked up in, in order. -/
  packages : List String := ["java.lang"]
  /-- Documents start with the host library. -/
  hasLibrary : Bool := true
deriving DecidableEq, Repr

namespace Settings

/-- The settings with one more package at the end, unless it is there. -/
def withPackage (settings : Settings) (package : String) : Settings :=
  if package ∈ settings.packages then settings
  else { settings with packages := settings.packages ++ [package] }

/-- The settings without the host library. -/
def withoutLibrary (settings : Settings) : Settings := { settings with hasLibrary := false }

end Settings

end Colloquy
