import Colloquy.Host.Library
import Colloquy.Proofs.Catalog.Inert
import Colloquy.Proofs.Number.Texts
import Colloquy.Value.Sum

/-!
# Sound values and heaps

Every object that a value refers to is on the heap in a state of its class, and every text in a
value is spelled in an alphabet.  So are then the printed forms of values.
-/

namespace Colloquy

open Host

/-- Objects of the class are in such states. -/
def ObjectState.Suits (className : String) : ObjectState → Prop
  | .list _ => className = Lists.arrayListName ∨ className = Lists.linkedListName
  | .builder _ => className = Builder.className
  | .plain _ => className = TypeName.object
  | .text _ => False

/-- The object is on the heap in a state of its class. -/
def ObjectRef.Typed (heap : Heap) (reference : ObjectRef) : Prop :=
  ∃ state, heap.state? reference = some state ∧ state.Suits reference.className

/-- The classes of the objects of the host. -/
def Host.classNames : List String :=
  [Lists.arrayListName, Lists.linkedListName, Builder.className, TypeName.object]

namespace ObjectRef.Typed

variable {heap : Heap} {reference : ObjectRef}

theorem className_mem (typed : reference.Typed heap) : reference.className ∈ classNames := by
  obtain ⟨state, -, suits⟩ := typed
  cases state <;> simp only [ObjectState.Suits] at suits <;> simp [classNames, suits]
  rcases suits with same | same <;> simp [same]

/-- A list object holds items. -/
theorem list? (typed : reference.Typed heap)
    (isList : reference.className = Lists.arrayListName ∨
      reference.className = Lists.linkedListName) :
    ∃ items, heap.list? reference = some items := by
  obtain ⟨state, found, suits⟩ := typed
  cases state with
  | list items => exact ⟨items, by rw [Heap.list?, found]⟩
  | builder | plain =>
    rcases isList with same | same <;> exact absurd (same.symm.trans suits) (by decide)
  | text => exact suits.elim

/-- A string builder holds a text. -/
theorem builder? (typed : reference.Typed heap)
    (isBuilder : reference.className = Builder.className) :
    ∃ text, heap.builder? reference = some text := by
  obtain ⟨state, found, suits⟩ := typed
  cases state with
  | builder text => exact ⟨text, by rw [Heap.builder?, found]⟩
  | list =>
    rcases suits with same | same <;> exact absurd (isBuilder.symm.trans same) (by decide)
  | plain => exact absurd (isBuilder.symm.trans suits) (by decide)
  | text => exact suits.elim

end ObjectRef.Typed

namespace Heap

variable {before after : Heap}

/-- Objects that are in a state of their class stay in one. -/
def Keeps (before after : Heap) : Prop :=
  ∀ ⦃reference : ObjectRef⦄, reference.Typed before → reference.Typed after

theorem Keeps.refl (heap : Heap) : heap.Keeps heap := fun _ typed => typed

theorem Keeps.trans {middle : Heap} (first : before.Keeps middle) (second : middle.Keeps after) :
    before.Keeps after :=
  fun _ typed => second (first typed)

theorem keeps_of_states_eq (same : before.states = after.states) : before.Keeps after := by
  rintro reference ⟨state, found, suits⟩
  refine ⟨state, ?_, suits⟩
  rwa [state?, ← same]

/-- A new object leaves the others as they are. -/
theorem keeps_allocate (heap : Heap) (className : String) (state : ObjectState) :
    heap.Keeps (heap.allocate className state).2 := by
  rintro reference ⟨old, found, suits⟩
  have within : reference.id < heap.states.length := (List.getElem?_eq_some_iff.1 found).1
  refine ⟨old, ?_, suits⟩
  rw [state?, allocate, List.getElem?_append_left within]
  exact found

theorem typed_allocate (heap : Heap) {className : String} {state : ObjectState}
    (suits : state.Suits className) :
    ObjectRef.Typed (heap.allocate className state).2 ⟨heap.states.length, className⟩ :=
  ⟨state, by simp [state?, allocate], suits⟩

/-- An object may be put in another state of every class that its state suits. -/
theorem keeps_replace {heap : Heap} {target : ObjectRef} {old new : ObjectState}
    (found : heap.state? target = some old)
    (alike : ∀ className, old.Suits className → new.Suits className) :
    heap.Keeps (heap.replace target new) := by
  rintro reference ⟨state, known, suits⟩
  by_cases same : target.id = reference.id
  · have old_eq : old = state := by
      rw [state?, same] at found
      exact Option.some.inj (found.symm.trans known)
    refine ⟨new, ?_, alike _ (old_eq ▸ suits)⟩
    have within := (List.getElem?_eq_some_iff.1 found).1
    rw [state?, replace, ← same]
    exact List.getElem?_set_self within
  · refine ⟨state, ?_, suits⟩
    rw [state?, replace, List.getElem?_set_ne same]
    exact known

end Heap

namespace Value

/-- The objects that the value refers to are in states of their classes, and its texts are spelled
in the alphabet. -/
inductive Sound (alphabet : Alphabet) (heap : Heap) : Value → Prop
  | null : Sound alphabet heap .null
  | bool (truth : Bool) : Sound alphabet heap (.bool truth)
  | char {character : Char} (member : alphabet.has character) :
    Sound alphabet heap (.char character)
  | number (num : Number) : Sound alphabet heap (.number num)
  | str {text : String} (spelled : alphabet.Spells text.toList) : Sound alphabet heap (.str text)
  | array {items : List Value} (each : ∀ item ∈ items, Sound alphabet heap item) :
    Sound alphabet heap (.array items)
  | object {reference : ObjectRef} (typed : reference.Typed heap) :
    Sound alphabet heap (.object reference)
  | marker {mark : Marker} (spelled : alphabet.Spells mark.text.toList) :
    Sound alphabet heap (.marker mark)

variable {alphabet : Alphabet} {heap : Heap} {value : Value}

theorem Sound.later (sound : value.Sound alphabet heap) {after : Heap} (keeps : heap.Keeps after) :
    value.Sound alphabet after := by
  induction sound with
  | null => exact .null
  | bool truth => exact .bool truth
  | char member => exact .char member
  | number num => exact .number num
  | str spelled => exact .str spelled
  | array _ ih => exact .array ih
  | object typed => exact .object (keeps typed)
  | marker spelled => exact .marker spelled

theorem spells_of_str {text : String} (sound : (str text).Sound alphabet heap) :
    alphabet.Spells text.toList := by
  cases sound with
  | str spelled => exact spelled

theorem typed_of_object {reference : ObjectRef} (sound : (object reference).Sound alphabet heap) :
    reference.Typed heap := by
  cases sound with
  | object typed => exact typed

theorem sound_of_array {items : List Value} (sound : (array items).Sound alphabet heap) :
    ∀ item ∈ items, item.Sound alphabet heap := by
  cases sound with
  | array each => exact each

theorem spells_of_marker {mark : Marker} (sound : (marker mark).Sound alphabet heap) :
    alphabet.Spells mark.text.toList := by
  cases sound with
  | marker spelled => exact spelled

theorem mem_referencesOf {items : List Value} {reference : ObjectRef} :
    reference ∈ referencesOf items ↔ ∃ item ∈ items, reference ∈ item.references := by
  induction items with
  | nil => simp [referencesOf]
  | cons item items ih => simp [referencesOf, ih]

/-- All objects that a sound value refers to are in states of their classes. -/
theorem Sound.typed_of_mem (sound : value.Sound alphabet heap) {reference : ObjectRef}
    (member : reference ∈ value.references) : reference.Typed heap := by
  induction sound with
  | array _ ih =>
    obtain ⟨item, known, within⟩ := mem_referencesOf.1 member
    exact ih item known within
  | object typed => rwa [List.mem_singleton.1 member]
  | null | bool | char | number | str | marker => cases member

mutual

/-- Where texts do not matter, a value is sound if its objects are in states of their classes. -/
theorem sound_all : (value : Value) → (∀ reference ∈ value.references, reference.Typed heap) →
    value.Sound .all heap
  | .null, _ => .null
  | .bool truth, _ => .bool truth
  | .char _, _ => .char trivial
  | .number num, _ => .number num
  | .str _, _ => .str (Alphabet.spells_all _)
  | .array items, typed => .array (soundItems_all items typed)
  | .object _, typed => .object (typed _ (.head _))
  | .marker _, _ => .marker (Alphabet.spells_all _)

theorem soundItems_all : (items : List Value) →
    (∀ reference ∈ referencesOf items, reference.Typed heap) →
      ∀ item ∈ items, item.Sound .all heap
  | [], _ => List.forall_mem_nil _
  | first :: rest, typed => List.forall_mem_cons.2
    ⟨sound_all first fun reference member => typed reference (List.mem_append_left _ member),
      soundItems_all rest fun reference member => typed reference (List.mem_append_right _ member)⟩

end

end Value

/-- The contents of an object are sound. -/
def ObjectState.Sound (alphabet : Alphabet) (heap : Heap) : ObjectState → Prop
  | .list items => ∀ item ∈ items, item.Sound alphabet heap
  | .builder content => alphabet.Spells content.toList
  | .plain _ => True
  | .text shown => alphabet.Spells shown.toList

/-- The contents of all objects are sound. -/
def Heap.Sound (alphabet : Alphabet) (heap : Heap) : Prop :=
  ∀ state ∈ heap.states, state.Sound alphabet heap

theorem ObjectState.Sound.later {alphabet : Alphabet} {heap after : Heap} {state : ObjectState}
    (sound : state.Sound alphabet heap) (keeps : heap.Keeps after) :
    state.Sound alphabet after := by
  cases state with
  | list items => exact fun item member => (sound item member).later keeps
  | builder text => exact sound
  | plain number => trivial
  | text shown => exact sound

namespace Heap.Sound

variable {alphabet : Alphabet} {heap : Heap}

theorem of_state? (sound : heap.Sound alphabet) {reference : ObjectRef} {state : ObjectState}
    (found : heap.state? reference = some state) : state.Sound alphabet heap :=
  sound state (List.mem_of_getElem? found)

theorem of_list? (sound : heap.Sound alphabet) {reference : ObjectRef} {items : List Value}
    (found : heap.list? reference = some items) : ∀ item ∈ items, item.Sound alphabet heap :=
  sound.of_state? (state?_of_list? found)

theorem of_builder? (sound : heap.Sound alphabet) {reference : ObjectRef} {text : String}
    (found : heap.builder? reference = some text) : alphabet.Spells text.toList :=
  sound.of_state? (state?_of_builder? found)

theorem allocate (sound : heap.Sound alphabet) (className : String) {state : ObjectState}
    (fresh : state.Sound alphabet heap) : (heap.allocate className state).2.Sound alphabet := by
  have keeps := heap.keeps_allocate className state
  intro other member
  rcases List.mem_append.1 member with old | new
  · exact (sound other old).later keeps
  · rw [List.mem_singleton.1 new]
    exact fresh.later keeps

theorem replace (sound : heap.Sound alphabet) {target : ObjectRef} {state : ObjectState}
    (keeps : heap.Keeps (heap.replace target state)) (fresh : state.Sound alphabet heap) :
    (heap.replace target state).Sound alphabet := by
  intro other member
  rcases List.mem_or_eq_of_mem_set member with old | rfl
  · exact (sound other old).later keeps
  · exact fresh.later keeps

end Heap.Sound

theorem Heap.sound_empty (alphabet : Alphabet) : Heap.Sound alphabet {} := by
  intro state member
  cases member

/-- Where texts do not matter, a heap is sound if its lists refer to objects that are in states of
their classes. -/
theorem Heap.sound_all {heap : Heap}
    (typed : ∀ state ∈ heap.states, ∀ reference ∈ state.references, reference.Typed heap) :
    heap.Sound .all := by
  intro state member
  cases state with
  | list items => exact Value.soundItems_all items (typed _ member)
  | builder text => exact Alphabet.spells_all _
  | plain number => trivial
  | text shown => exact Alphabet.spells_all _

theorem spells_bracketed {alphabet : Alphabet} {items : List String}
    (each : ∀ item ∈ items, alphabet.Spells item.toList) :
    alphabet.Spells (bracketed items).toList := by
  have inner : alphabet.Spells (", ".intercalate items).toList :=
    Alphabet.spells_intercalate (Alphabet.spells_of_isPrintable (by decide)) each
  have opening : alphabet.Spells "[".toList := Alphabet.spells_of_isPrintable (by decide)
  have closing : alphabet.Spells "]".toList := Alphabet.spells_of_isPrintable (by decide)
  rw [bracketed, String.toList_append, String.toList_append]
  exact Alphabet.spells_append_iff.2 ⟨Alphabet.spells_append_iff.2 ⟨opening, inner⟩, closing⟩

namespace Value

variable {alphabet : Alphabet} {heap : Heap}

/-- Sound values are printed in the alphabet, whatever is being printed already. -/
theorem spells_textOn (heapSound : heap.Sound alphabet) :
    (∀ path (value : Value), value.Sound alphabet heap →
      alphabet.Spells (value.textOn heap path).toList) ∧
    ∀ path (items : List Value), (∀ item ∈ items, item.Sound alphabet heap) →
      ∀ text ∈ itemTextsOn heap path items, alphabet.Spells text.toList := by
  apply textOn.mutual_induct heap
    (fun path value => value.Sound alphabet heap →
      alphabet.Spells (value.textOn heap path).toList)
    (fun path items => (∀ item ∈ items, item.Sound alphabet heap) →
      ∀ text ∈ itemTextsOn heap path items, alphabet.Spells text.toList)
  case case1 =>
    intro path _
    rw [textOn]
    exact Alphabet.spells_of_isPrintable (by decide)
  case case2 =>
    intro path _
    rw [textOn]
    exact Alphabet.spells_of_isPrintable (by decide)
  case case3 =>
    intro path truth _ _
    rw [textOn]
    exact Alphabet.spells_of_isPrintable (by cases truth <;> decide)
  case case4 =>
    intro path character sound
    cases sound with
    | char member =>
      rw [textOn]
      simpa using member
  case case5 =>
    intro path num _
    rw [textOn]
    exact Alphabet.spells_of_isPrintable num.isPrintable_text
  case case6 =>
    intro path text sound
    rw [textOn]
    exact spells_of_str sound
  case case7 =>
    intro path items ih sound
    rw [textOn]
    exact spells_bracketed (ih (sound_of_array sound))
  case case8 =>
    intro path reference onPath _
    rw [textOn, dif_pos onPath]
    exact Alphabet.spells_of_isPrintable (by decide)
  case case9 =>
    intro path reference fresh items found ih _
    rw [textOn, dif_neg fresh, found]
    exact spells_bracketed (ih (heapSound.of_state? found))
  case case10 =>
    intro path reference fresh text found _
    rw [textOn, dif_neg fresh, found]
    exact heapSound.of_state? found
  case case11 =>
    intro path reference fresh ordinal found _
    have digits : (Nat.toDigits 16 ordinal).all Text.isPrintable := isPrintable_toDigits 16 ordinal
    have front : (TypeName.object ++ "@").toList.all Text.isPrintable := by decide
    rw [textOn, dif_neg fresh, found]
    refine Alphabet.spells_of_isPrintable ?_
    rw [String.toList_append, String.toList_ofList, List.all_append, front, digits]
    rfl
  case case12 =>
    intro path reference fresh shown found _
    rw [textOn, dif_neg fresh, found]
    exact heapSound.of_state? found
  case case13 =>
    -- a sound value refers to no object that is not on the heap
    intro path reference _ absent sound
    obtain ⟨state, found, -⟩ := typed_of_object sound
    rw [absent] at found
    cases found
  case case14 =>
    intro path mark sound
    rw [textOn]
    exact spells_of_marker sound
  case case15 =>
    intro path _ text member
    rw [itemTextsOn] at member
    cases member
  case case16 =>
    intro path item rest first later sound
    rw [itemTextsOn]
    obtain ⟨here, others⟩ := List.forall_mem_cons.1 sound
    exact List.forall_mem_cons.2 ⟨first here, later others⟩

theorem Sound.spells_text {value : Value} (sound : value.Sound alphabet heap)
    (heapSound : heap.Sound alphabet) : alphabet.Spells (value.text heap).toList :=
  (spells_textOn heapSound).1 [] value sound

/-- Two sound values joined as texts are sound. -/
theorem sound_joined {left right : Value} (heapSound : heap.Sound alphabet)
    (leftSound : left.Sound alphabet heap) (rightSound : right.Sound alphabet heap) :
    (str (left.text heap ++ right.text heap)).Sound alphabet heap := by
  refine .str ?_
  rw [String.toList_append]
  exact Alphabet.spells_append_iff.2
    ⟨leftSound.spells_text heapSound, rightSound.spells_text heapSound⟩

theorem sound_add {left right sum : Value} (heapSound : heap.Sound alphabet)
    (leftSound : left.Sound alphabet heap) (rightSound : right.Sound alphabet heap)
    (adds : left.add heap right = .ok sum) : sum.Sound alphabet heap := by
  have joined := sound_joined heapSound leftSound rightSound
  unfold add at adds
  split at adds
  · split at adds
    · cases adds
      exact .number _
    · cases adds
    · cases adds
      exact joined
  · cases adds
    exact joined

end Value

/-- A conversion of a sound value is sound. -/
theorem Value.Sound.coerce {alphabet : Alphabet} {heap : Heap} {catalog : Catalog}
    {type : TypeRef} {value converted : Value} (sound : value.Sound alphabet heap)
    (fits : catalog.coerce type value = some converted) : converted.Sound alphabet heap := by
  revert sound
  refine Catalog.coerce_induction (motive := fun value converted =>
    value.Sound alphabet heap → converted.Sound alphabet heap) (fun _ sound => sound)
    (fun _ wide _ => .number wide) (fun each sound => .array ?_) fits
  replace sound := sound_of_array sound
  induction each with
  | nil => exact List.forall_mem_nil _
  | cons first _ ih =>
    obtain ⟨here, others⟩ := List.forall_mem_cons.1 sound
    exact List.forall_mem_cons.2 ⟨first here, ih others⟩

end Colloquy
