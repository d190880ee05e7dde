import Mathlib.Data.List.Nodup
import Colloquy.Catalog.Discovery
import Colloquy.Proofs.Catalog.Ancestors

/-!
# Links between discovered types

Each discovered type is linked to exactly the other discovered types that are assignable to it,
in the order of their discovery.
-/

namespace Colloquy.Discovery

/-- Every type is discovered once, and its subclasses are the other discovered types assignable to
it. -/
structure Linked (hierarchy : Hierarchy) (discovery : Discovery) : Prop where
  /-- No type is discovered twice. -/
  nodup : discovery.names.Nodup
  /-- The subclasses of a type, in the order of discovery. -/
  subclasses : ∀ type ∈ discovery.types,
    type.subclasses = discovery.names.filter fun other =>
      other ≠ type.name && hierarchy.isAssignable other type.name

theorem contains_iff {discovery : Discovery} {name : String} :
    discovery.contains name ↔ name ∈ discovery.names := by
  simp [contains]

theorem names_discover {discovery : Discovery} {name : String}
    (unknown : ¬ discovery.contains name) (hierarchy : Hierarchy) :
    (discovery.discover hierarchy name).names = discovery.names ++ [name] := by
  have kept (type : DiscoveredType) :
      (if hierarchy.isAssignable name type.name then
        { type with subclasses := type.subclasses ++ [name] } else type).name = type.name := by
    split <;> rfl
  simp only [discover, unknown, Bool.false_eq_true, if_false, names, List.map_append,
    List.map_map, List.map_cons, List.map_nil]
  congr 1
  exact List.map_congr_left fun type _ => kept type

theorem linked_empty (hierarchy : Hierarchy) : Linked hierarchy {} where
  nodup := List.nodup_nil
  subclasses type member := by cases member

/-- A newly discovered type is linked in both directions. -/
theorem Linked.discover {hierarchy : Hierarchy} {discovery : Discovery}
    (linked : discovery.Linked hierarchy) (name : String) :
    (discovery.discover hierarchy name).Linked hierarchy := by
  by_cases known : discovery.contains name
  · simpa [Discovery.discover, known] using linked
  have fresh : name ∉ discovery.names := fun member => known (contains_iff.2 member)
  constructor
  · rw [names_discover known]
    rw [List.nodup_append]
    refine ⟨linked.nodup, by simp, ?_⟩
    intro other listed added member same
    rw [same, List.mem_singleton.1 member] at listed
    exact fresh listed
  · intro type member
    rw [names_discover known, List.filter_append]
    simp only [Discovery.discover, known, Bool.false_eq_true, if_false, List.mem_append,
      List.mem_map, List.mem_singleton] at member
    rcases member with ⟨old, listed, rfl⟩ | rfl
    · have different : name ≠ old.name := by
        rintro rfl
        exact fresh (List.mem_map_of_mem listed)
      by_cases assignable : hierarchy.isAssignable name old.name
      · simp [assignable, linked.subclasses old listed, different]
      · simp [assignable, linked.subclasses old listed]
    · have others : ∀ other ∈ discovery.names, other ≠ name := by
        rintro other listed rfl
        exact fresh listed
      simp only [ne_eq, decide_not, hierarchy.isAssignable_self, Bool.and_true, List.filter_cons,
        decide_true, Bool.not_true, Bool.false_eq_true, if_false, List.filter_nil,
        List.append_nil]
      refine List.filter_congr fun other listed => ?_
      simp [others other listed]

/-- A name that is discovered once stands for its type. -/
theorem subclassesOf_of_mem {discovery : Discovery} (once : discovery.names.Nodup)
    {type : DiscoveredType} (listed : type ∈ discovery.types) :
    discovery.subclassesOf type.name = type.subclasses := by
  cases found : discovery.types.find? (·.name = type.name) with
  | none => simpa using List.find?_eq_none.1 found type listed
  | some first =>
    have same : first.name = type.name := by simpa using List.find?_some found
    have equal := List.inj_on_of_nodup_map once (List.mem_of_find?_eq_some found) listed same
    rw [subclassesOf, found, equal]

theorem Linked.subclassesOf_eq {hierarchy : Hierarchy} {discovery : Discovery}
    (linked : discovery.Linked hierarchy) {name : String} (known : discovery.contains name) :
    discovery.subclassesOf name = discovery.names.filter fun other =>
      other ≠ name && hierarchy.isAssignable other name := by
  obtain ⟨type, listed, rfl⟩ := List.mem_map.1 (contains_iff.1 known)
  rw [subclassesOf_of_mem linked.nodup listed, linked.subclasses type listed]

theorem Linked.mem_subclassesOf_iff {hierarchy : Hierarchy} {discovery : Discovery}
    (linked : discovery.Linked hierarchy) {name other : String} (known : discovery.contains name) :
    other ∈ discovery.subclassesOf name ↔
      discovery.contains other ∧ other ≠ name ∧ hierarchy.isAssignable other name := by
  simp [linked.subclassesOf_eq known, contains_iff]

theorem Linked.supertypesOf_eq {hierarchy : Hierarchy} {discovery : Discovery}
    (linked : discovery.Linked hierarchy) {name : String} (known : discovery.contains name) :
    discovery.supertypesOf name = discovery.names.filter fun other =>
      name ≠ other && hierarchy.isAssignable name other := by
  rw [supertypesOf, names, List.filter_map]
  congr 1
  refine List.filter_congr fun type listed => ?_
  simp [linked.subclasses type listed, contains_iff.1 known]

theorem Linked.mem_supertypesOf_iff {hierarchy : Hierarchy} {discovery : Discovery}
    (linked : discovery.Linked hierarchy) {name other : String} (known : discovery.contains name) :
    other ∈ discovery.supertypesOf name ↔
      discovery.contains other ∧ name ≠ other ∧ hierarchy.isAssignable name other := by
  simp [linked.supertypesOf_eq known, contains_iff]

end Colloquy.Discovery
