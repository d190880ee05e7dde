import Colloquy.Catalog.Hierarchy

/-!
# Discovered types

The types that a document has referred to so far, in the order of their discovery, each with the
other discovered types that are assignable to it.  A type is discovered once and never forgotten.
-/

namespace Colloquy

/-- A discovered type. -/
structure DiscoveredType where
  /-- The fully-qualified name. -/
  name : String
  /-- The other discovered types that are assignable to it, in the order of discovery. -/
  subclasses : List String
deriving DecidableEq, Repr

/-- The discovered types. -/
structure Discovery where
  /-- The types in the order of discovery. -/
  types : List DiscoveredType := []

namespace Discovery

/-- The names of the discovered types. -/
def names (discovery : Discovery) : List String := discovery.types.map (·.name)

/-- The type is discovered. -/
def contains (discovery : Discovery) (name : String) : Bool := name ∈ discovery.names

/-- The discovered types assignable to a type, without the type itself. -/
def subclassesOf (discovery : Discovery) (name : String) : List String :=
  match discovery.types.find? (·.name = name) with
  | some type => type.subclasses
  | none => []

/-- The discovered types that a type is assignable to, without the type itself. -/
def supertypesOf (discovery : Discovery) (name : String) : List String :=
  (discovery.types.filter fun type => name ∈ type.subclasses).map (·.name)

/-- The discovered types with one more, which is linked to those before it in both directions. -/
def discover (discovery : Discovery) (hierarchy : Hierarchy) (name : String) : Discovery :=
  if discovery.contains name then discovery
  else
    let linked := discovery.types.map fun type =>
      if hierarchy.isAssignable name type.name then
        { type with subclasses := type.subclasses ++ [name] }
      else type
    let subclasses := discovery.names.filter (hierarchy.isAssignable · name)
    ⟨linked ++ [⟨name, subclasses⟩]⟩

end Discovery

end Colloquy
