import Mathlib.Data.List.Forall2
import Colloquy.Host.Library
import Colloquy.Proofs.Signature.Reading

/-!
# Lists as sequences

Each operation on a list does to its items what it is to do to a sequence, and it does nothing to
other objects.  An operation whose index is out of range fails and changes nothing.
-/

namespace Colloquy

namespace Value

/-- Two values are equal: objects if they are the same one, arrays item by item, and all others by
content. -/
inductive Equal : Value → Value → Prop
  | null : Equal .null .null
  | bool (truth : Bool) : Equal (.bool truth) (.bool truth)
  | char (character : Char) : Equal (.char character) (.char character)
  | number {left right : Number} (same : left.same right) : Equal (.number left) (.number right)
  | str (text : String) : Equal (.str text) (.str text)
  | array {lefts rights : List Value} (each : List.Forall₂ Equal lefts rights) :
    Equal (.array lefts) (.array rights)
  | object {left right : ObjectRef} (same : left.id = right.id) :
    Equal (.object left) (.object right)
  | marker {left right : Marker} (same : left.same right) : Equal (.marker left) (.marker right)

mutual

theorem same_iff : (left right : Value) → (left.same right ↔ left.Equal right)
  | .array lefts, right => by
    cases right with
    | array rights =>
      rw [same, sameItems_iff lefts rights]
      constructor
      · exact .array
      · intro equal
        cases equal with
        | array each => exact each
    | _ =>
      simp only [same, Bool.false_eq_true, false_iff]
      rintro ⟨⟩
  | .null, right | .bool _, right | .char _, right | .number _, right | .str _, right
  | .object _, right | .marker _, right => by
    cases right <;> grind [same, Equal]

theorem sameItems_iff : (lefts rights : List Value) →
    (sameItems lefts rights ↔ List.Forall₂ Equal lefts rights)
  | [], [] => by simp [sameItems]
  | left :: lefts, right :: rights => by
    rw [sameItems, Bool.and_eq_true, same_iff left right, sameItems_iff lefts rights,
      List.forall₂_cons]
  | [], _ :: _ | _ :: _, [] => by simp [sameItems]

end

end Value

namespace Heap

variable {heap : Heap} {reference : ObjectRef} {items left : List Value}

/-- All objects but one are as they were, and no numbers were given out. -/
structure ChangedAt (reference : ObjectRef) (before after : Heap) : Prop where
  /-- Other objects have not changed, and none were made. -/
  others : ∀ other : ObjectRef, other.id ≠ reference.id → after.state? other = before.state? other
  /-- No plain object was numbered. -/
  plainCount : after.plainCount = before.plainCount
  /-- No analyzer was numbered. -/
  analyzerCount : after.analyzerCount = before.analyzerCount

/-- An object is known by its place. -/
theorem list?_congr {other : ObjectRef} (same : other.id = reference.id) :
    heap.list? other = heap.list? reference := by
  rw [list?, list?, state?, state?, same]

theorem list?_of_state? (found : heap.state? reference = some (.list items)) :
    heap.list? reference = some items := by
  rw [list?, found]

theorem ChangedAt.list? {after : Heap} (changed : ChangedAt reference heap after)
    {other : ObjectRef} (apart : other.id ≠ reference.id) :
    after.list? other = heap.list? other := by
  rw [Heap.list?, Heap.list?, changed.others other apart]

theorem changedAt_replace (heap : Heap) (reference : ObjectRef) (state : ObjectState) :
    ChangedAt reference heap (heap.replace reference state) :=
  ⟨fun _ apart => List.getElem?_set_ne (Ne.symm apart), rfl, rfl⟩

theorem list?_replace (holds : heap.list? reference = some items) (left : List Value) :
    (heap.replace reference (.list left)).list? reference = some left := by
  have within := (List.getElem?_eq_some_iff.1 (state?_of_list? holds)).1
  exact list?_of_state? (List.getElem?_set_self within)

/-- The object that is made next. -/
def next (heap : Heap) (className : String) : ObjectRef := ⟨heap.states.length, className⟩

theorem changedAt_allocate (heap : Heap) (className : String) (state : ObjectState) :
    ChangedAt (heap.next className) heap (heap.allocate className state).2 := by
  refine ⟨fun other apart => ?_, rfl, rfl⟩
  rw [state?, state?, allocate]
  rcases Nat.lt_or_gt_of_ne apart with old | beyond
  · exact List.getElem?_append_left old
  · rw [List.getElem?_eq_none (Nat.le_of_lt beyond), List.getElem?_eq_none]
    rw [List.length_append]
    exact beyond

theorem state?_next (heap : Heap) (className : String) : heap.state? (heap.next className) = none :=
  List.getElem?_eq_none (Nat.le_refl _)

theorem list?_allocate (heap : Heap) (className : String) (items : List Value) :
    (heap.allocate className (.list items)).2.list? (heap.next className) = some items :=
  list?_of_state? List.getElem?_concat_length

/-- A new object changes no list. -/
theorem list?_allocate_of_some (holds : heap.list? reference = some items) (className : String)
    (state : ObjectState) : (heap.allocate className state).2.list? reference = some items := by
  have old := (List.getElem?_eq_some_iff.1 (state?_of_list? holds)).1
  rw [(heap.changedAt_allocate className state).list? (Nat.ne_of_lt old), holds]

end Heap

namespace Host.Lists

/-- A 32-bit number. -/
structure Index where
  /-- The number. -/
  value : Int
  /-- It has 32 bits. -/
  holds : Width.int.Holds value

/-- The number as a value. -/
def Index.toValue (index : Index) : Value := .number (.whole ⟨.int, index.value, index.holds⟩)

/-- An operation on a list, with arguments of the types that it is declared for. -/
inductive Operation where
  | add (item : Value)
  | insert (index : Index) (item : Value)
  | get (index : Index)
  | set (index : Index) (item : Value)
  | remove (index : Index)
  | size
  | isEmpty
  | contains (item : Value)
  | clear
  | addFirst (item : Value)

namespace Operation

/-- The member of the library. -/
def member : Operation → MemberSpec
  | add _ => instanceSpec collectionName "add" "(Object)" Lists.add
  | insert _ _ => instanceSpec listName "add" "(int, Object)" Lists.insert
  | get _ => instanceSpec listName "get" "(int)" Lists.get
  | set _ _ => instanceSpec listName "set" "(int, Object)" Lists.set
  | remove _ => instanceSpec listName "remove" "(int)" Lists.remove
  | size => instanceSpec collectionName "size" "()" Lists.size
  | isEmpty => instanceSpec collectionName "isEmpty" "()" Lists.isEmpty
  | contains _ => instanceSpec collectionName "contains" "(Object)" Lists.contains
  | clear => instanceSpec collectionName "clear" "()" Lists.clear
  | addFirst _ => instanceSpec linkedListName "addFirst" "(Object)" Lists.addFirst

/-- The arguments behind the receiver. -/
def args : Operation → List Value
  | add item | contains item | addFirst item => [item]
  | insert index item | set index item => [index.toValue, item]
  | get index | remove index => [index.toValue]
  | size | isEmpty | clear => []

/-- The operation on a list. -/
def on (operation : Operation) (reference : ObjectRef) : HostM Value :=
  operation.member.run (.object reference :: operation.args)

theorem member_mem (operation : Operation) : operation.member ∈ Host.members := by
  have listed : operation.member ∈ Lists.members := by
    cases operation <;> simp [member, Lists.members]
  simp [Host.members, listed]

/-- The index of an operation on a sequence of a length, and what it has to be below. -/
def limit? (length : Nat) : Operation → Option (Index × Nat)
  | insert index _ => some (index, length + 1)
  | get index | set index _ | remove index => some (index, length)
  | _ => none

/-- If the operation has an index then it is in range. -/
def Within (operation : Operation) (length : Nat) : Prop :=
  ∀ index limit, operation.limit? length = some (index, limit) →
    0 ≤ index.value ∧ index.value < limit

/-- The operation on a sequence, with its result and the sequence that is left. -/
inductive Does (items : List Value) : Operation → Value → List Value → Prop
  | add {item : Value} : Does items (.add item) (.bool true) (items ++ [item])
  | insert {index : Index} {item : Value} {front back : List Value}
    (split : items = front ++ back) (place : index.value = front.length) :
    Does items (.insert index item) .null (front ++ item :: back)
  | get {index : Index} {item : Value} {front back : List Value}
    (split : items = front ++ item :: back) (place : index.value = front.length) :
    Does items (.get index) item items
  | set {index : Index} {item old : Value} {front back : List Value}
    (split : items = front ++ old :: back) (place : index.value = front.length) :
    Does items (.set index item) old (front ++ item :: back)
  | remove {index : Index} {item : Value} {front back : List Value}
    (split : items = front ++ item :: back) (place : index.value = front.length) :
    Does items (.remove index) item (front ++ back)
  | size {count : Index} (counts : count.value = items.length) :
    Does items .size count.toValue items
  | isEmpty {truth : Bool} (tells : truth ↔ items = []) : Does items .isEmpty (.bool truth) items
  | contains {item : Value} {truth : Bool} (tells : truth ↔ ∃ other ∈ items, other.Equal item) :
    Does items (.contains item) (.bool truth) items
  | clear : Does items .clear .null []
  | addFirst {item : Value} : Does items (.addFirst item) .null (item :: items)

/-- What an operation does is decided by the items. -/
theorem Does.unique {items left rest : List Value} {operation : Operation} {result other : Value}
    (does : Does items operation result left) (again : Does items operation other rest) :
    result = other ∧ left = rest := by
  -- two splits at one index are the same
  have parts {front front' back back' : List Value} {index : Index}
      (split : items = front ++ back) (place : index.value = front.length)
      (split' : items = front' ++ back') (place' : index.value = front'.length) :
      front = front' ∧ back = back' :=
    List.append_inj (split.symm.trans split') (by omega)
  cases does with
  | add | clear | addFirst =>
    cases again
    exact ⟨rfl, rfl⟩
  | insert split place =>
    cases again with
    | insert split' place' =>
      obtain ⟨rfl, rfl⟩ := parts split place split' place'
      exact ⟨rfl, rfl⟩
  | get split place =>
    cases again with
    | get split' place' =>
      obtain ⟨rfl, same⟩ := parts split place split' place'
      exact ⟨(List.cons.inj same).1, rfl⟩
  | set split place =>
    cases again with
    | set split' place' =>
      obtain ⟨rfl, same⟩ := parts split place split' place'
      obtain ⟨rfl, rfl⟩ := List.cons.inj same
      exact ⟨rfl, rfl⟩
  | remove split place =>
    cases again with
    | remove split' place' =>
      obtain ⟨rfl, same⟩ := parts split place split' place'
      obtain ⟨rfl, rfl⟩ := List.cons.inj same
      exact ⟨rfl, rfl⟩
  | @size count counts =>
    cases again with
    | @size count' counts' =>
      obtain ⟨value, fits⟩ := count
      obtain ⟨value', fits'⟩ := count'
      obtain rfl : value = value' := counts.trans counts'.symm
      exact ⟨rfl, rfl⟩
  | isEmpty tells =>
    cases again with
    | isEmpty tells' =>
      exact ⟨congrArg Value.bool (Bool.eq_iff_iff.2 (tells.trans tells'.symm)), rfl⟩
  | contains tells =>
    cases again with
    | contains tells' =>
      exact ⟨congrArg Value.bool (Bool.eq_iff_iff.2 (tells.trans tells'.symm)), rfl⟩

end Operation

variable {heap : Heap} {reference : ObjectRef} {items : List Value} {args : List Value}

/-- The receiver is the first argument. -/
theorem run_receiver {α : Type} (next : ObjectRef → HostM α) :
    (objectArgument (.object reference :: args) 0 >>= next).run.run heap =
      (next reference).run.run heap :=
  rfl

/-- Only a list has items. -/
theorem run_onItems_of_none (step : List Value → HostM (Value × List Value))
    (absent : heap.list? reference = none) :
    (onItems (.object reference :: args) step).run.run heap =
      (.error (reference.className ++ " is not a list"), heap) := by
  rw [onItems, run_receiver, run_get_bind, absent]
  rfl

/-- What a step on the items leaves of them is stored, unless it fails. -/
theorem run_onItems (step : List Value → HostM (Value × List Value))
    {outcome : Except String (Value × List Value)} (holds : heap.list? reference = some items)
    (runs : (step items).run.run heap = (outcome, heap)) :
    (onItems (.object reference :: args) step).run.run heap =
      (outcome.map (·.1),
        outcome.toOption.elim heap fun done => heap.replace reference (.list done.2)) := by
  rw [onItems, run_receiver, run_get_bind, holds]
  simp only [ExceptT.run_bind, StateT.run_bind, runs]
  cases outcome <;> rfl

/-- The message about an index that is out of range. -/
def outOfBounds (index : Int) (limit : Nat) : String :=
  "Index " ++ toString index ++ " out of bounds for length " ++ toString limit

/-- An index that is in range is the place that is found. -/
theorem run_indexBelow {α : Type} (index : Int) (limit : Nat) (result : Nat → α) (heap : Heap) :
    (do return result (← indexBelow index limit) : HostM α).run.run heap =
      (if 0 ≤ index ∧ index < limit then .ok (result index.toNat)
        else .error (outOfBounds index limit), heap) := by
  rw [indexBelow]
  split <;> rfl

namespace Operation

/-- What becomes of an operation on a list that holds some items, and of the heap: it is done, or
its index is out of range and nothing changes. -/
inductive Outcome (items : List Value) (reference : ObjectRef) (heap : Heap)
    (operation : Operation) : Except String Value × Heap → Prop
  | done {result : Value} {left : List Value} (within : operation.Within items.length)
    (does : Does items operation result left) :
    Outcome items reference heap operation (.ok result, heap.replace reference (.list left))
  | refused {index : Index} {limit : Nat}
    (limited : operation.limit? items.length = some (index, limit))
    (outside : ¬(0 ≤ index.value ∧ index.value < limit)) :
    Outcome items reference heap operation (.error (outOfBounds index.value limit), heap)

variable {operation : Operation}

/-- An operation without an index is done. -/
theorem outcome_whole (holds : heap.list? reference = some items)
    (result : List Value → Value × List Value)
    (runs : operation.on reference =
      onItems (.object reference :: operation.args) fun items => return result items)
    (free : operation.limit? items.length = none)
    (does : Does items operation (result items).1 (result items).2) :
    Outcome items reference heap operation ((operation.on reference).run.run heap) := by
  rw [runs, run_onItems _ holds rfl]
  refine .done (fun index limit limited => ?_) does
  rw [free] at limited
  cases limited

/-- An operation at an index is done if the index is in range. -/
theorem outcome_at (holds : heap.list? reference = some items) {index : Index}
    (limit : List Value → Nat) (result : List Value → Nat → Value × List Value)
    (runs : operation.on reference = onItems (.object reference :: operation.args) fun items => do
      let place ← indexBelow index.value (limit items)
      return result items place)
    (limited : operation.limit? items.length = some (index, limit items))
    (does : ∀ place : Nat, place < limit items → index.value = place →
      Does items operation (result items place).1 (result items place).2) :
    Outcome items reference heap operation ((operation.on reference).run.run heap) := by
  rw [runs, run_onItems _ holds (run_indexBelow index.value (limit items) (result items) heap)]
  split
  · rename_i within
    refine .done (fun other bound same => ?_) (does _ (by omega) (by omega))
    cases limited.symm.trans same
    exact within
  · rename_i outside
    exact .refused limited outside

/-- A place in a list is between what stands before it and what stands behind it. -/
theorem split_at {place : Nat} (within : place < items.length) :
    items = items.take place ++ items.getD place .null :: items.drop (place + 1) ∧
      place = (items.take place).length := by
  constructor
  · rw [List.getD_eq_getElem?_getD, List.getElem?_eq_getElem within, Option.getD_some,
      List.getElem_cons_drop, List.take_append_drop]
  · rw [List.length_take, Nat.min_eq_left (Nat.le_of_lt within)]

/-- Each operation does what it is to do, unless its index is out of range. -/
theorem outcome (operation : Operation) (holds : heap.list? reference = some items)
    (short : items.length ≤ Width.int.greatest) :
    Outcome items reference heap operation ((operation.on reference).run.run heap) := by
  have counted : Width.int.Holds items.length :=
    ⟨Int.le_trans (by decide) (Int.natCast_nonneg _), short⟩
  cases operation with
  | add item => exact outcome_whole holds (fun items => (.bool true, items ++ [item])) rfl rfl .add
  | insert index item =>
    refine outcome_at holds (fun items => items.length + 1)
      (fun items place => (.null, items.take place ++ item :: items.drop place)) rfl rfl ?_
    intro place within value
    refine .insert (List.take_append_drop place items).symm ?_
    rw [value, List.length_take, Nat.min_eq_left (Nat.le_of_lt_succ within)]
  | get index =>
    refine outcome_at holds List.length (fun items place => (items.getD place .null, items))
      rfl rfl ?_
    intro place within value
    obtain ⟨split, first⟩ := split_at within
    exact .get split (value.trans (congrArg Nat.cast first))
  | set index item =>
    refine outcome_at holds List.length
      (fun items place => (items.getD place .null, items.set place item)) rfl rfl ?_
    intro place within value
    obtain ⟨split, first⟩ := split_at within
    rw [List.set_eq_take_append_cons_drop, if_pos within]
    exact .set split (value.trans (congrArg Nat.cast first))
  | remove index =>
    refine outcome_at holds List.length
      (fun items place => (items.getD place .null, items.eraseIdx place)) rfl rfl ?_
    intro place within value
    obtain ⟨split, first⟩ := split_at within
    rw [List.eraseIdx_eq_take_drop_succ]
    exact .remove split (value.trans (congrArg Nat.cast first))
  | size =>
    have counts : (do return (← lengthValue items.length, items) :
        HostM (Value × List Value)).run.run heap =
          (.ok (Index.toValue ⟨items.length, counted⟩, items), heap) := by
      rw [lengthValue, Value.int?, Number.ofInt?, Whole.ofInt?, dif_pos counted]
      rfl
    have runs : (size.on reference).run.run heap =
        (.ok (Index.toValue ⟨items.length, counted⟩), heap.replace reference (.list items)) :=
      run_onItems (fun items => return (← lengthValue items.length, items)) holds counts
    rw [runs]
    exact .done (by rintro _ _ ⟨⟩) (.size rfl)
  | isEmpty =>
    refine outcome_whole holds (fun items => (.bool items.isEmpty, items)) rfl rfl ?_
    exact .isEmpty List.isEmpty_iff
  | contains item =>
    refine outcome_whole holds (fun items => (.bool (items.any (·.same item)), items)) rfl rfl ?_
    refine .contains ?_
    simp [List.any_eq_true, Value.same_iff]
  | clear => exact outcome_whole holds (fun _ => (.null, [])) rfl rfl .clear
  | addFirst item =>
    exact outcome_whole holds (fun items => (.null, item :: items)) rfl rfl .addFirst

theorem Outcome.unique {first second : Heap} {one other : Except String Value × Heap}
    (outcome : Outcome items reference first operation one)
    (again : Outcome items reference second operation other) : one.1 = other.1 := by
  cases outcome with
  | done within does =>
    cases again with
    | done _ does' => exact congrArg Except.ok (does.unique does').1
    | refused limited outside => exact absurd (within _ _ limited) outside
  | refused limited outside =>
    cases again with
    | done within _ => exact absurd (within _ _ limited) outside
    | refused limited' _ =>
      cases limited.symm.trans limited'
      rfl

/-- The outcome of an operation does not depend on what other objects there are. -/
theorem outcome_congr (operation : Operation) {first second : Heap}
    (holds : first.list? reference = some items) (again : second.list? reference = some items)
    (short : items.length ≤ Width.int.greatest) :
    ((operation.on reference).run.run first).1 = ((operation.on reference).run.run second).1 :=
  (operation.outcome holds short).unique (operation.outcome again short)

end Operation

end Host.Lists

end Colloquy
