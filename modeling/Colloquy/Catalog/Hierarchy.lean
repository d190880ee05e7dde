import Colloquy.Remaining
import Colloquy.Table
import Colloquy.Text.Cut
import Colloquy.Value.TypeName

/-!
# The type hierarchy

Declared types with their direct supertypes.  The supertypes of a type are searched breadth-first,
and cycles and undeclared supertypes are allowed.
-/

namespace Colloquy

/-- The direct supertypes of each declared type. -/
structure Hierarchy where
  /-- The declared types in the order of their declaration. -/
  types : Table String (List String)

namespace Hierarchy

/-- The type is declared. -/
def contains (hierarchy : Hierarchy) (name : String) : Bool := hierarchy.types.has name

/-- The direct supertypes of a type, none if it is not declared. -/
def supertypes (hierarchy : Hierarchy) (name : String) : List String :=
  (hierarchy.types.get? name).getD []

/-- The names with those of a second list that they do not have. -/
def union (names : List String) (others : List String) : List String :=
  others.foldl (fun names name => if name ∈ names then names else names ++ [name]) names

/-- The hierarchy with a type and further supertypes of it.  A type declared without supertypes
extends the root. -/
def declare (hierarchy : Hierarchy) (name : String) (supertypes : List String) : Hierarchy :=
  let direct :=
    if supertypes.isEmpty && name != TypeName.object then [TypeName.object] else supertypes
  ⟨hierarchy.types.put name (union (hierarchy.supertypes name) direct)⟩

/-- The root, and the types of the values. -/
def ofValues : Hierarchy :=
  let root : Hierarchy := ⟨[(TypeName.object, [])]⟩
  let plain := [(TypeName.charSequence, []), (TypeName.string, [TypeName.charSequence]),
    (TypeName.boolean, []), (TypeName.character, []), (TypeName.number, [])]
  let boxed := NumKind.all.map fun kind => (TypeName.boxed kind, [TypeName.number])
  (plain ++ boxed).foldl (fun hierarchy (name, supertypes) => hierarchy.declare name supertypes)
    root

/-- The declared type that a written name refers to: that of the same name, or else the only one
with this last segment. -/
def resolveName? (hierarchy : Hierarchy) (name : String) : Option String :=
  if hierarchy.contains name then some name
  else match hierarchy.types.keys.filter fun declared =>
      Text.lastSegment declared.toList = name.toList with
    | [declared] => some declared
    | _ => none

theorem supertypes_of_not_contains {hierarchy : Hierarchy} {name : String}
    (undeclared : ¬ hierarchy.contains name) : hierarchy.supertypes name = [] := by
  simp only [contains, Table.has, Option.not_isSome_iff_eq_none] at undeclared
  simp [supertypes, undeclared]

/-- The types reached from a queue, in the order in which they leave it for the first time. -/
def search (hierarchy : Hierarchy) (seen : List String) : List String → List String
  | [] => []
  | name :: queue =>
    if _fresh : name ∈ seen then hierarchy.search seen queue
    else name :: hierarchy.search (name :: seen) (queue ++ hierarchy.supertypes name)
termination_by queue => (remaining hierarchy.types.keys seen, queue.length)
decreasing_by
  · exact Prod.Lex.right _ (by simp)
  · by_cases declared : hierarchy.contains name
    · exact Prod.Lex.left _ _ (remaining_cons_lt (Table.has_iff_mem_keys.1 declared) _fresh)
    · rw [supertypes_of_not_contains declared]
      rcases Nat.lt_or_eq_of_le (remaining_cons_le _ seen name) with fewer | same
      · exact Prod.Lex.left _ _ fewer
      · rw [same]
        exact Prod.Lex.right _ (by simp)

/-- The supertypes of a type, direct or not, nearest first. -/
def ancestors (hierarchy : Hierarchy) (name : String) : List String :=
  hierarchy.search [] (hierarchy.supertypes name)

/-- A value of the first type may be used where the second type is expected. -/
def isAssignable (hierarchy : Hierarchy) (source target : String) : Bool :=
  source = target || target = TypeName.object || target ∈ hierarchy.ancestors source

end Hierarchy

end Colloquy
