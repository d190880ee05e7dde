import Colloquy.Value.Basic

/-!
# The heap

The states of the objects made so far, in the order of their making.  Objects are never removed.
-/

namespace Colloquy

/-- The state of an object.  A plain object has a number of its own, and some print as a fixed
text. -/
inductive ObjectState where
  | list (items : List Value)
  | builder (text : String)
  | plain (number : Nat)
  | text (shown : String)

/-- Every object, and how many numbers were given out. -/
structure Heap where
  /-- The state of each object at its place. -/
  states : List ObjectState := []
  /-- How many plain objects were made. -/
  plainCount : Nat := 0
  /-- How many analyzers were made. -/
  analyzerCount : Nat := 0

namespace Heap

/-- The heap before anything was made. -/
def empty : Heap := {}

/-- The state of an object. -/
def state? (heap : Heap) (reference : ObjectRef) : Option ObjectState :=
  heap.states[reference.id]?

/-- The heap with a new object, and the value that refers to it. -/
def allocate (heap : Heap) (className : String) (state : ObjectState) : Value × Heap :=
  (.object ⟨heap.states.length, className⟩, { heap with states := heap.states ++ [state] })

/-- The heap with a new plain object; plain objects are numbered from one. -/
def allocatePlain (heap : Heap) : Value × Heap :=
  let number := heap.plainCount + 1
  { heap with plainCount := number }.allocate TypeName.object (.plain number)

/-- The heap with a new analyzer. -/
def allocateAnalyzer (heap : Heap) (check : OutputCheck) : Value × Heap :=
  (.marker (.analyzer heap.analyzerCount check),
    { heap with analyzerCount := heap.analyzerCount + 1 })

/-- The heap with another state for an object. -/
def replace (heap : Heap) (reference : ObjectRef) (state : ObjectState) : Heap :=
  { heap with states := heap.states.set reference.id state }

/-- The items of an object that is a list. -/
def list? (heap : Heap) (reference : ObjectRef) : Option (List Value) :=
  match heap.state? reference with
  | some (.list items) => some items
  | _ => none

/-- The text of an object that is a string builder. -/
def builder? (heap : Heap) (reference : ObjectRef) : Option String :=
  match heap.state? reference with
  | some (.builder text) => some text
  | _ => none

theorem state?_of_list? {heap : Heap} {reference : ObjectRef} {items : List Value}
    (found : heap.list? reference = some items) : heap.state? reference = some (.list items) := by
  unfold list? at found
  split at found
  · rename_i state
    rw [state, Option.some.inj found]
  · cases found

theorem state?_of_builder? {heap : Heap} {reference : ObjectRef} {text : String}
    (found : heap.builder? reference = some text) :
    heap.state? reference = some (.builder text) := by
  unfold builder? at found
  split at found
  · rename_i state
    rw [state, Option.some.inj found]
  · cases found

end Heap

end Colloquy
