import Colloquy.Proofs.Catalog.Coercion
import Colloquy.Proofs.Catalog.Members

/-!
# Functions that change no object

A host function that changes no object may make new ones and read those that its arguments lead to.
So it does not notice what other functions of this kind have made before it.
-/

namespace Colloquy

namespace Value

mutual

/-- The objects that a value refers to, those of its items included. -/
def references : Value → List ObjectRef
  | array items => referencesOf items
  | object reference => [reference]
  | _ => []

/-- The objects that values refer to. -/
def referencesOf : List Value → List ObjectRef
  | [] => []
  | value :: values => references value ++ referencesOf values

end

theorem referencesOf_append (values others : List Value) :
    referencesOf (values ++ others) = referencesOf values ++ referencesOf others := by
  induction values with
  | nil => rfl
  | cons value values ih => rw [List.cons_append, referencesOf, referencesOf, ih, List.append_assoc]

end Value

open Value

/-- The objects that the state of an object refers to. -/
def ObjectState.references : ObjectState → List ObjectRef
  | .list items => referencesOf items
  | _ => []

namespace Heap

/-- The objects are on the heap. -/
def Holds (heap : Heap) (references : List ObjectRef) : Prop :=
  ∀ reference ∈ references, reference.id < heap.states.length

/-- The objects on the heap refer to objects on the heap. -/
def Closed (heap : Heap) : Prop := ∀ state ∈ heap.states, heap.Holds state.references

/-- The later heap has the same objects in the same states, and perhaps more objects. -/
def Extends (heap later : Heap) : Prop := heap.states <+: later.states

theorem Extends.refl (heap : Heap) : heap.Extends heap := List.prefix_rfl

theorem Holds.later {heap later : Heap} {references : List ObjectRef}
    (held : heap.Holds references) (grown : heap.Extends later) : later.Holds references :=
  fun reference member => Nat.lt_of_lt_of_le (held reference member) grown.length_le

theorem Holds.of_subset {heap : Heap} {references others : List ObjectRef}
    (held : heap.Holds references) (fewer : others ⊆ references) : heap.Holds others :=
  fun reference member => held reference (fewer member)

end Heap

namespace Catalog

/-- A conversion refers to nothing new. -/
theorem references_of_coerce {catalog : Catalog} {type : TypeRef} {value converted : Value}
    (fits : catalog.coerce type value = some converted) :
    converted.references ⊆ value.references := by
  refine coerce_induction (motive := fun value converted => converted.references ⊆ value.references)
    (fun _ => List.Subset.refl _) (fun _ _ => List.Subset.refl _) (fun each => ?_) fits
  rw [references, references]
  induction each with
  | nil => exact List.Subset.refl _
  | cons first _ ih =>
    rw [referencesOf, referencesOf]
    exact List.append_subset.2 ⟨List.subset_append_of_subset_left _ first,
      List.subset_append_of_subset_right _ ih⟩

/-- Two calls come to the same: both fail, or their results convert to the same types. -/
def Alike (catalog : Catalog) : Except String Value → Except String Value → Prop
  | .ok first, .ok second =>
    ∀ type, (catalog.coerce type first).isSome = (catalog.coerce type second).isSome
  | .error _, .error _ => True
  | _, _ => False

/-- A host function changes no object: it leaves every object as it was, and its outcome depends on
the objects that its arguments lead to, but not on what else is on the heap. -/
structure Inert (catalog : Catalog) (native : Native) : Prop where
  /-- Objects stay as they are, and new ones refer to objects on the heap. -/
  keeps : ∀ {heap : Heap} {args : List Value}, heap.Closed → heap.Holds (referencesOf args) →
    heap.Extends ((native args).run.run heap).2 ∧ ((native args).run.run heap).2.Closed
  /-- Further objects make no difference. -/
  alike : ∀ {heap later : Heap} {args : List Value}, heap.Closed → later.Closed →
    heap.Holds (referencesOf args) → heap.Extends later →
      catalog.Alike ((native args).run.run heap).1 ((native args).run.run later).1

/-- No host function of the catalog changes an object. -/
def AllInert (catalog : Catalog) : Prop :=
  ∀ key, ∀ member ∈ catalog.membersAt key, catalog.Inert member.run

/-- A function that returns a fixed value is inert. -/
theorem inert_const (catalog : Catalog) (value : Value) :
    catalog.Inert fun _ => return value where
  keeps closed _ := ⟨.refl _, closed⟩
  alike _ _ _ _ := fun _ => rfl

/-- A function that makes an object without references is inert. -/
theorem inert_allocate (catalog : Catalog) (className : String) {state : ObjectState}
    (plain : state.references = []) :
    catalog.Inert fun _ => do
      let (value, heap) := (← get).allocate className state
      set heap
      return value where
  keeps {heap args} closed _ := by
    have grown : heap.Extends (heap.allocate className state).2 := List.prefix_append _ _
    refine ⟨grown, fun other member => ?_⟩
    rcases List.mem_append.1 member with old | new
    · exact (closed other old).later grown
    · rw [List.mem_singleton.1 new, plain]
      intro reference absent
      cases absent
  alike _ _ _ _ := by
    intro type
    cases type with
    | primitive type => cases type <;> rfl
    | named name =>
      change (if catalog.hierarchy.isAssignable className name then some _ else none).isSome =
        (if catalog.hierarchy.isAssignable className name then some _ else none).isSome
      by_cases assignable : catalog.hierarchy.isAssignable className name
      · rw [if_pos assignable, if_pos assignable]
        rfl
      · rw [if_neg assignable, if_neg assignable]
    | array element => rfl

theorem allInert_of_members {catalog : Catalog}
    (each : ∀ entry ∈ catalog.members, ∀ member ∈ entry.2, catalog.Inert member.run) :
    catalog.AllInert :=
  every_of_members each

end Catalog

end Colloquy
