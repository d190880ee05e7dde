import Colloquy.Proofs.Document.Soundness

/-!
# No confusion of types

The objects of a document are in states of their classes, and calls of its handles keep them so.  A
host function that is called without the absent reference fails for the values of its arguments
only, never for their types.
-/

namespace Colloquy

open Host

/-- The objects that the value refers to are in states of their classes. -/
def Value.Typed (heap : Heap) (value : Value) : Prop :=
  ∀ reference ∈ value.references, reference.Typed heap

/-- The objects that objects refer to are in states of their classes. -/
def Heap.Typed (heap : Heap) : Prop :=
  ∀ state ∈ heap.states, ∀ reference ∈ state.references, reference.Typed heap

variable {heap : Heap}

theorem Value.typed_iff {value : Value} : value.Typed heap ↔ value.Sound .all heap :=
  ⟨value.sound_all, fun sound _ member => sound.typed_of_mem member⟩

theorem Heap.typed_iff : heap.Typed ↔ heap.Sound .all := by
  refine ⟨Heap.sound_all, fun sound state known reference member => ?_⟩
  have stateSound := sound state known
  cases state with
  | list items =>
    obtain ⟨item, listed, within⟩ := Value.mem_referencesOf.1 member
    exact (stateSound item listed).typed_of_mem within
  | builder | plain | text => cases member

/-- The state that the class of an object calls for. -/
structure ObjectRef.HoldsState (heap : Heap) (reference : ObjectRef) : Prop where
  /-- A list holds items. -/
  list : reference.className = Lists.arrayListName ∨ reference.className = Lists.linkedListName →
    ∃ items, heap.list? reference = some items
  /-- A string builder holds a text. -/
  builder : reference.className = Builder.className → ∃ text, heap.builder? reference = some text

theorem ObjectRef.Typed.holdsState {reference : ObjectRef} (typed : reference.Typed heap) :
    reference.HoldsState heap :=
  ⟨typed.list?, typed.builder?⟩

/-- What a call of a handle may do to typed objects: they and the result are typed afterwards, and
without absent references the host function fails with faults only. -/
structure Handle.Unconfused (handle : Handle) (catalog : Catalog) (heap : Heap)
    (args : List Value) : Prop where
  typed : ((handle.invoke catalog args).run.run heap).2.Typed
  keeps : heap.Keeps ((handle.invoke catalog args).run.run heap).2
  result : ∀ result, ((handle.invoke catalog args).run.run heap).1 = .ok result →
    result.Typed ((handle.invoke catalog args).run.run heap).2
  failure : (∀ arg ∈ args, ¬arg.isNull) → ∀ message,
    ((handle.invoke catalog args).run.run heap).1 = .error (.native message) →
      Fault message ∧ ¬Confusion message

theorem Registry.Guarded.unconfused {registry : Registry} (guarded : registry.Guarded)
    {typeName : String} {operation : Option String} {handle : Handle}
    (filed : handle ∈ registry.handles typeName operation) {args : List Value}
    (heapTyped : heap.Typed) (argsTyped : ∀ arg ∈ args, arg.Typed heap) :
    handle.Unconfused registry.catalog heap args := by
  have sound : ∀ arg ∈ args, arg.Sound .all heap := fun arg member =>
    Value.typed_iff.1 (argsTyped arg member)
  obtain ⟨leads, ends⟩ := guarded.ensures_invoke filed sound (Heap.typed_iff.1 heapTyped)
  refine ⟨Heap.typed_iff.2 leads.sound, leads.keeps, fun result returned => ?_,
    fun present message failed => ?_⟩
  · rw [returned] at ends
    exact Value.typed_iff.2 ends
  · rw [failed] at ends
    rcases ends message rfl with fault | ⟨arg, member, null⟩
    · exact ⟨fault, fault.not_confusion⟩
    · exact absurd null (present arg member)

namespace Document

/-- The object is referred to by a variable or by another object. -/
def Refers (document : Document) (reference : ObjectRef) : Prop :=
  (∃ name value, document.value? name = some value ∧ reference ∈ value.references) ∨
    ∃ state ∈ document.session.heap.states, reference ∈ state.references

/-- Over the host library, whatever documents are loaded and whether the loads succeed or not, the
lists and the string builders of a document hold what their classes call for.  Whatever handle the
documents registered is called on typed objects leaves typed objects, and without absent references
its host function fails only for an index or a number out of range, an unreadable text, or an
overflow. -/
theorem unconfused_loadAll : ∃ catalog, Host.catalog = .ok catalog ∧
    ∀ (settings : Settings) (order : TableOrder) (sources : List String),
      let document := (ofCatalog catalog settings order).loadAll sources
      let registry := document.session.registry
      (∀ reference, document.Refers reference →
        reference.Typed document.session.heap ∧ reference.HoldsState document.session.heap) ∧
      ∀ typeName operation, ∀ handle ∈ registry.handles typeName operation,
        ∀ (heap : Heap) (args : List Value), heap.Typed → (∀ arg ∈ args, arg.Typed heap) →
          handle.Unconfused registry.catalog heap args := by
  obtain ⟨catalog, built⟩ := Host.catalog_built
  refine ⟨catalog, built, fun settings order sources => ?_⟩
  intro document registry
  have guarded := guarded_catalog built
  have sound : document.Sound catalog settings.packages .all :=
    (sound_ofCatalog catalog settings order .all).loadAll guarded fun _ _ _ _ =>
      Alphabet.spells_all _
  constructor
  · rintro reference (⟨name, value, known, member⟩ | ⟨state, known, member⟩)
    · have typed := (sound.session.bound name value known).typed_of_mem member
      exact ⟨typed, typed.holdsState⟩
    · have typed := Heap.typed_iff.2 sound.session.heap state known reference member
      exact ⟨typed, typed.holdsState⟩
  · intro typeName operation handle filed heap args heapTyped argsTyped
    obtain ⟨order, requests, served⟩ := sound.session.served
    have safe : registry.Guarded := by
      rw [show registry = _ from served]
      exact Registry.guarded_serve guarded settings.packages order requests
    exact safe.unconfused filed heapTyped argsTyped

end Document

end Colloquy
