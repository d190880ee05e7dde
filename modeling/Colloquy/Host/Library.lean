import Colloquy.Host.Annotations
import Colloquy.Host.Builder
import Colloquy.Host.Lists
import Colloquy.Host.Numbers
import Colloquy.Host.Object
import Colloquy.Host.Strings

/-!
# The host library

The catalog that documents use by default: objects, strings, numbers, lists and markers.
-/

namespace Colloquy.Host

/-- The types of the library with their supertypes, without those of the values. -/
def types : List (String × List String) :=
  [(Numbers.mathName, []),
    (Builder.className, [TypeName.charSequence]),
    (Lists.collectionName, []),
    (Lists.listName, [Lists.collectionName]),
    (Lists.arrayListName, [Lists.listName]),
    (Lists.linkedListName, [Lists.listName]),
    (TypeName.information, []),
    (TypeName.contains, []),
    (TypeName.lineCount, [])]

/-- The members of the library. -/
def members : List MemberSpec :=
  Object.members ++ Strings.members ++ Numbers.members ++ Builder.members ++ Lists.members
    ++ Annotations.members

/-- The catalog with a member. -/
def define (catalog : Catalog) (spec : MemberSpec) : Except RuntimeError Catalog :=
  catalog.define spec.kind ⟨spec.typeName, spec.name⟩ spec.signature spec.run

/-- The value types and the types of the library. -/
def typesOnly : Catalog :=
  types.foldl (fun catalog (name, supertypes) => catalog.declareType name supertypes) .ofValues

/-- The catalog of the library. -/
def catalog : Except RuntimeError Catalog := members.foldlM define typesOnly

end Colloquy.Host
