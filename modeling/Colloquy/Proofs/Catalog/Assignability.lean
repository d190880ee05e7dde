import Mathlib.Data.Fintype.EquivFin
import Mathlib.Data.Finset.Dedup
import Mathlib.Data.String.Basic
import Colloquy.Catalog.Basic
import Colloquy.Proofs.Catalog.Ancestors

/-!
# Assignability as a preorder

Every type is assignable to itself and to the root.  Assignability is transitive exactly if nothing
but the root itself is declared above the root: a type that reaches the root by that rule alone does
not reach what is above it.
-/

namespace Colloquy

namespace Hierarchy

variable {hierarchy : Hierarchy}

/-- Nothing but the root itself is above the root. -/
def Capped (hierarchy : Hierarchy) : Prop :=
  ∀ supertype, hierarchy.Extends TypeName.object supertype → supertype = TypeName.object

theorem Capped.eq_root (capped : hierarchy.Capped) {target : String}
    (path : Relation.TransGen hierarchy.Extends TypeName.object target) :
    target = TypeName.object := by
  induction path with
  | single direct => exact capped _ direct
  | tail _ direct root => exact capped _ (root ▸ direct)

theorem Capped.isAssignable_trans (capped : hierarchy.Capped) {source middle target : String}
    (lower : hierarchy.isAssignable source middle) (upper : hierarchy.isAssignable middle target) :
    hierarchy.isAssignable source target := by
  by_cases root : middle = TypeName.object
  · subst root
    have top : target = TypeName.object := by
      rcases isAssignable_iff.1 upper with same | top | above
      · exact same.symm
      · exact top
      · exact capped.eq_root above
    exact isAssignable_iff.2 (.inr (.inl top))
  · exact isAssignable_trans_of_ne root lower upper

/-- Not every name is that of a declared type. -/
theorem exists_undeclared (hierarchy : Hierarchy) (other : String) :
    ∃ name, name ≠ other ∧ hierarchy.supertypes name = [] := by
  obtain ⟨name, fresh⟩ := Infinite.exists_notMem_finset (other :: hierarchy.types.keys).toFinset
  rw [List.mem_toFinset, List.mem_cons, not_or] at fresh
  exact ⟨name, fresh.1, supertypes_of_not_contains fun declared =>
    fresh.2 (Table.has_iff_mem_keys.1 declared)⟩

/-- An undeclared type is assignable to the root, but not to what is above it. -/
theorem isAssignable_trans_iff :
    (∀ source middle target, hierarchy.isAssignable source middle →
      hierarchy.isAssignable middle target → hierarchy.isAssignable source target) ↔
      hierarchy.Capped := by
  constructor
  · intro transitive supertype direct
    obtain ⟨name, other, bare⟩ := hierarchy.exists_undeclared supertype
    have lower : hierarchy.isAssignable name TypeName.object :=
      isAssignable_iff.2 (.inr (.inl rfl))
    have upper : hierarchy.isAssignable TypeName.object supertype :=
      isAssignable_iff.2 (.inr (.inr (.single direct)))
    rcases isAssignable_iff.1 (transitive _ _ _ lower upper) with same | top | above
    · exact absurd same other
    · exact top
    · obtain ⟨next, first, -⟩ := Relation.TransGen.head'_iff.1 above
      rw [Extends, bare] at first
      cases first
  · exact fun capped _ _ _ lower upper => capped.isAssignable_trans lower upper

theorem mem_union {names others : List String} {name : String} :
    name ∈ union names others ↔ name ∈ names ∨ name ∈ others := by
  induction others generalizing names with
  | nil => simp [union]
  | cons other others ih =>
    have step : union names (other :: others) =
        union (if other ∈ names then names else names ++ [other]) others := rfl
    rw [step, ih]
    split
    · rename_i known
      constructor
      · exact Or.imp_right (.tail _)
      · rintro (old | _ | ⟨_, later⟩)
        · exact .inl old
        · exact .inl known
        · exact .inr later
    · simp [or_assoc]

/-- A declaration puts its supertypes above the root if it is one of the root. -/
theorem extends_root_declare {name supertype : String} {supertypes : List String} :
    (hierarchy.declare name supertypes).Extends TypeName.object supertype ↔
      hierarchy.Extends TypeName.object supertype ∨
        name = TypeName.object ∧ supertype ∈ supertypes := by
  by_cases root : name = TypeName.object
  · subst root
    simp [Extends, Hierarchy.supertypes, declare, mem_union]
  · simp [Extends, Hierarchy.supertypes, declare, Table.get?_put_of_ne (Ne.symm root), root]

end Hierarchy

namespace Catalog

/-- The catalog of the value types with further types, each with some supertypes. -/
def ofTypes (types : List (String × List String)) : Catalog :=
  types.foldl (fun catalog (name, supertypes) => catalog.declareType name supertypes) ofValues

/-- What is above the root was declared so. -/
theorem extends_root_ofTypes {types : List (String × List String)} {supertype : String} :
    (ofTypes types).hierarchy.Extends TypeName.object supertype ↔
      ∃ supertypes, (TypeName.object, supertypes) ∈ types ∧ supertype ∈ supertypes := by
  induction types using List.reverseRecOn with
  | nil =>
    have root : (ofTypes []).hierarchy.supertypes TypeName.object = [] := rfl
    simp [Hierarchy.Extends, root]
  | append_singleton types type ih =>
    obtain ⟨name, supertypes⟩ := type
    have step : (ofTypes (types ++ [(name, supertypes)])).hierarchy =
        (ofTypes types).hierarchy.declare name supertypes := by
      rw [ofTypes, List.foldl_append]
      rfl
    rw [step, Hierarchy.extends_root_declare, ih]
    simp only [List.mem_append, List.mem_singleton, Prod.mk.injEq]
    constructor
    · rintro (⟨others, listed, member⟩ | ⟨rfl, member⟩)
      · exact ⟨others, .inl listed, member⟩
      · exact ⟨supertypes, .inr ⟨rfl, rfl⟩, member⟩
    · rintro ⟨others, listed | ⟨rfl, rfl⟩, member⟩
      · exact .inl ⟨others, listed, member⟩
      · exact .inr ⟨rfl, member⟩

/-- Whatever types are declared, in whatever order, assignability is reflexive, everything is
assignable to the root, and it is transitive but for what is above the root: so it is transitive
just in case the root is never declared below another type. -/
theorem isAssignable_preorder_iff (types : List (String × List String)) :
    (∀ name, (ofTypes types).hierarchy.isAssignable name name) ∧
    (∀ name, (ofTypes types).hierarchy.isAssignable name TypeName.object) ∧
    (∀ source middle target, middle ≠ TypeName.object →
      (ofTypes types).hierarchy.isAssignable source middle →
      (ofTypes types).hierarchy.isAssignable middle target →
      (ofTypes types).hierarchy.isAssignable source target) ∧
    ((∀ source middle target, (ofTypes types).hierarchy.isAssignable source middle →
      (ofTypes types).hierarchy.isAssignable middle target →
      (ofTypes types).hierarchy.isAssignable source target) ↔
      ∀ supertypes, (TypeName.object, supertypes) ∈ types →
        ∀ supertype ∈ supertypes, supertype = TypeName.object) := by
  refine ⟨Hierarchy.isAssignable_self _, ?_, ?_, ?_⟩
  · exact fun name => Hierarchy.isAssignable_iff.2 (.inr (.inl rfl))
  · exact fun source middle target inner => Hierarchy.isAssignable_trans_of_ne inner
  · rw [Hierarchy.isAssignable_trans_iff]
    constructor
    · exact fun capped supertypes listed supertype member =>
        capped supertype (extends_root_ofTypes.2 ⟨supertypes, listed, member⟩)
    · intro declared supertype direct
      obtain ⟨supertypes, listed, member⟩ := extends_root_ofTypes.1 direct
      exact declared supertypes listed supertype member

/-- Hens and eggs that are above each other, with the root declared again above itself. -/
def hens : Catalog :=
  ofTypes [("Hen", ["Egg"]), ("Egg", ["Hen"]), (TypeName.object, [TypeName.object])]

/-- Circles of supertypes, that of the root on itself too, are no hindrance. -/
theorem isAssignable_trans_hens :
    ∀ source middle target, hens.hierarchy.isAssignable source middle →
      hens.hierarchy.isAssignable middle target → hens.hierarchy.isAssignable source target :=
  (isAssignable_preorder_iff _).2.2.2.2 (by simp [TypeName.object])

/-- Ducks below an undeclared type, and a thing above the root. -/
def things : Catalog := ofTypes [("Duck", ["Bird"]), (TypeName.object, ["Thing"])]

/-- A duck is assignable to the root and the root to a thing, but the duck is not. -/
theorem isAssignable_not_trans :
    things.hierarchy.isAssignable "Duck" TypeName.object ∧
      things.hierarchy.isAssignable TypeName.object "Thing" ∧
      things.hierarchy.isAssignable "Duck" "Thing" = false := by
  have root : things.hierarchy.supertypes TypeName.object = ["Thing"] := rfl
  have duck : things.hierarchy.supertypes "Duck" = ["Bird"] := rfl
  have bird : things.hierarchy.supertypes "Bird" = [] := rfl
  have thing : things.hierarchy.supertypes "Thing" = [] := rfl
  have aboveDuck : things.hierarchy.ancestors "Duck" = ["Bird"] := by
    simp [Hierarchy.ancestors, Hierarchy.search, duck, bird]
  have aboveRoot : things.hierarchy.ancestors TypeName.object = ["Thing"] := by
    simp [Hierarchy.ancestors, Hierarchy.search, root, thing]
  refine ⟨?_, ?_, ?_⟩
  · simp [Hierarchy.isAssignable]
  · simp [Hierarchy.isAssignable, aboveRoot]
  · simp [Hierarchy.isAssignable, aboveDuck, TypeName.object]

end Catalog

end Colloquy
