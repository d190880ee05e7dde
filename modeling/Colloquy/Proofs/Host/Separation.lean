import Colloquy.Proofs.Host.Failures
import Colloquy.Proofs.Host.Sequences

/-!
# Lists apart from each other

What a list holds after a call is decided by what it held before and by the arguments, and it holds
the same unless it is the receiver.  So a list and a copy of it go their own ways: each holds what
it would if only the calls on itself had been made.
-/

namespace Colloquy.Host

/-- The first argument is the object. -/
def Receives (reference : ObjectRef) (args : List Value) : Prop :=
  ∃ receiver others, args = .object receiver :: others ∧ receiver.id = reference.id

instance (reference : ObjectRef) : DecidablePred (Receives reference)
  | .object receiver :: others =>
    decidable_of_iff (receiver.id = reference.id)
      ⟨fun same => ⟨receiver, others, rfl, same⟩, fun ⟨_, _, given, same⟩ => by
        cases given
        exact same⟩
  | [] | .null :: _ | .bool _ :: _ | .char _ :: _ | .number _ :: _ | .str _ :: _ | .array _ :: _
  | .marker _ :: _ => isFalse (by rintro ⟨_, _, ⟨⟩, _⟩)

section Steps

variable {α β : Type} {args : List Value}

/-- Lists hold the same items after the step as before it. -/
def KeepsLists (step : HostM α) : Prop :=
  ∀ heap reference items, heap.list? reference = some items →
    (step.run.run heap).2.list? reference = some items

/-- What a list holds after the step is decided by what it held before it, and is that unless the
list is the first argument. -/
def Confined (args : List Value) (step : HostM α) : Prop :=
  ∀ reference items, ∃ left, (¬Receives reference args → left = items) ∧
    ∀ heap, heap.list? reference = some items →
      (step.run.run heap).2.list? reference = some left

theorem KeepsLists.confined {step : HostM α} (keeps : KeepsLists step) : Confined args step :=
  fun reference items => ⟨items, fun _ => rfl, fun heap => keeps heap reference items⟩

theorem Reads.keepsLists {step : HostM α} (reads : Reads step) : KeepsLists step := by
  intro heap reference items holds
  rwa [reads heap]

theorem KeepsLists.bind {step : HostM α} {next : α → HostM β} (first : KeepsLists step)
    (rest : ∀ value, KeepsLists (next value)) : KeepsLists (step >>= next) := by
  intro heap reference items holds
  have kept := first heap reference items holds
  rw [ExceptT.run_bind, StateT.run_bind]
  cases outcome : step.run.run heap with
  | mk result middle =>
    rw [outcome] at kept
    cases result with
    | error message => exact kept
    | ok value => exact rest value middle reference items kept

theorem KeepsLists.unless {condition : Prop} [Decidable condition] (message : String)
    {next : PUnit → HostM β} (rest : ∀ value, KeepsLists (next value)) :
    KeepsLists (if condition then throw message >>= next else next ⟨⟩) := by
  split
  · exact (reads_throw message).keepsLists.bind rest
  · exact rest _

/-- What is put on the heap changes no list if it was not there. -/
theorem keepsLists_allocate (allocate : Heap → α × Heap)
    (keeps : ∀ (heap : Heap) reference items, heap.list? reference = some items →
      (allocate heap).2.list? reference = some items) :
    KeepsLists (do let (result, heap) := allocate (← get); set heap; return result : HostM α) :=
  keeps

/-- A plain step may stand before a confined one. -/
theorem Plain.then {step : HostM α} {next : α → HostM β} (first : Plain step)
    (rest : ∀ value, Confined args (next value)) : Confined args (step >>= next) := by
  obtain ⟨outcome, runs⟩ := first
  intro reference items
  cases outcome with
  | error message =>
    refine ⟨items, fun _ => rfl, fun heap holds => ?_⟩
    rw [ExceptT.run_bind, StateT.run_bind, runs]
    exact holds
  | ok value =>
    obtain ⟨left, same, holds⟩ := rest value reference items
    refine ⟨left, same, fun heap held => ?_⟩
    rw [ExceptT.run_bind, StateT.run_bind, runs]
    exact holds heap held

end Steps

/-- What lists hold after a call of the host function is decided by what they held before it and by
the arguments, and only the first argument may change. -/
def Confines (native : Native) : Prop := ∀ args, Confined args (native args)

theorem Harmless.confines {native : Native} (harmless : Harmless native) : Confines native :=
  fun args => (harmless args).keepsLists.confined

namespace Object

theorem confines_members : ∀ spec ∈ members, Confines spec.run := by
  have make : Confines make := fun _ =>
    (keepsLists_allocate Heap.allocatePlain fun _ _ _ holds =>
      Heap.list?_allocate_of_some holds TypeName.object _).confined
  simp [members, constructorSpec, instanceSpec, make, harmless_toText.confines,
    harmless_equals.confines]

end Object

namespace Builder

theorem keepsLists_ofText (text : String) : KeepsLists (ofText text) :=
  keepsLists_allocate (fun heap => heap.allocate className (.builder text))
    fun _ _ _ holds => Heap.list?_allocate_of_some holds _ _

/-- No list is changed with a builder, since an object is not both. -/
theorem keepsLists_change (edit : String → String) (args : List Value) :
    KeepsLists (change edit args) := by
  refine (reads_readArgument args 0).keepsLists.bind fun builder => ?_
  intro heap reference items holds
  rw [ExceptT.run_bind, StateT.run_bind, textOf, run_get_bind]
  cases known : heap.builder? builder with
  | none => exact holds
  | some text =>
    have apart : reference.id ≠ builder.id := by
      intro same
      have state := Heap.state?_of_builder? known
      rw [Heap.state?, ← same] at state
      cases state.symm.trans (Heap.state?_of_list? holds)
    exact ((heap.changedAt_replace builder _).list? apart).trans holds

theorem confines_members : ∀ spec ∈ members, Confines spec.run := by
  have makeEmpty : Confines makeEmpty := fun _ => (keepsLists_ofText _).confined
  have make : Confines make := fun args =>
    ((reads_readArgument args 0).keepsLists.bind fun _ => keepsLists_ofText _).confined
  have append : Confines append := fun args =>
    ((reads_argument args 1).keepsLists.bind fun value =>
      (reads_printed value).keepsLists.bind fun _ => keepsLists_change _ args).confined
  have reverse : Confines reverse := fun args => (keepsLists_change _ args).confined
  simp [members, constructorSpec, instanceSpec, makeEmpty, make, append, harmless_length.confines,
    reverse, Object.harmless_toText.confines]

end Builder

namespace Lists

theorem keepsLists_ofItems (className : String) (items : List Value) :
    KeepsLists (ofItems className items) :=
  keepsLists_allocate (fun heap => heap.allocate className (.list items))
    fun _ _ _ holds => Heap.list?_allocate_of_some holds _ _

/-- A list that is not the receiver is not changed. -/
theorem list?_onItems_of_apart {step : List Value → HostM (Value × List Value)}
    (plain : ∀ items, Plain (step items)) {args : List Value} {heap : Heap} {reference : ObjectRef}
    (apart : ¬Receives reference args) :
    ((onItems args step).run.run heap).2.list? reference = heap.list? reference := by
  cases args with
  | nil => rfl
  | cons first others =>
    cases first with
    | object receiver =>
      have other : reference.id ≠ receiver.id :=
        fun same => apart ⟨receiver, others, rfl, same.symm⟩
      cases given : heap.list? receiver with
      | none => rw [run_onItems_of_none step given]
      | some items =>
        obtain ⟨outcome, runs⟩ := plain items
        rw [run_onItems step given (runs heap)]
        cases outcome with
        | error message => rfl
        | ok done => exact (heap.changedAt_replace receiver _).list? other
    | _ => rfl

/-- A plain step on the items of the receiver decides what it holds then, and no other list is
changed. -/
theorem confined_onItems {step : List Value → HostM (Value × List Value)}
    (plain : ∀ items, Plain (step items)) (args : List Value) :
    Confined args (onItems args step) := by
  intro reference items
  by_cases receives : Receives reference args
  · obtain ⟨receiver, others, rfl, same⟩ := receives
    obtain ⟨outcome, runs⟩ := plain items
    refine ⟨outcome.toOption.elim items (·.2), ?_, fun heap holds => ?_⟩
    · exact fun apart => absurd ⟨receiver, others, rfl, same⟩ apart
    · rw [← Heap.list?_congr same] at holds ⊢
      rw [run_onItems step holds (runs heap)]
      cases outcome with
      | error message => exact holds
      | ok done => exact Heap.list?_replace holds done.2
  · exact ⟨items, fun _ => rfl, fun heap holds =>
      (list?_onItems_of_apart plain receives).trans holds⟩

theorem confined_at {length : List Value → Nat} {index : Int}
    {result : List Value → Nat → Value × List Value} (args : List Value) :
    Confined args (onItems args fun items => do
      let place ← indexBelow index (length items)
      return result items place) :=
  confined_onItems (fun _ => (plain_indexBelow _ _).bind fun _ => plain_pure _) args

theorem confines_with {result : Value → List Value → Value × List Value} :
    Confines (fun args => do
      let item ← argument args 1
      onItems args fun items => return result item items) :=
  fun args => (plain_argument args 1).then fun _ => confined_onItems (fun _ => plain_pure _) args

theorem confines_members : ∀ spec ∈ members, Confines spec.run := by
  have add : Confines add := confines_with
  have contains : Confines contains := confines_with
  have addFirst : Confines addFirst := confines_with
  have clear : Confines clear := confined_onItems fun _ => plain_pure _
  have isEmpty : Confines isEmpty := confined_onItems fun _ => plain_pure _
  have size : Confines size := confined_onItems fun _ =>
    (plain_lengthValue _).bind fun _ => plain_pure _
  have insert : Confines insert := fun args =>
    (plain_readArgument args 1).then fun _ => (plain_argument args 2).then fun _ => confined_at args
  have get : Confines get := fun args => (plain_readArgument args 1).then fun _ => confined_at args
  have set : Confines set := fun args =>
    (plain_readArgument args 1).then fun _ => (plain_argument args 2).then fun _ => confined_at args
  have remove : Confines remove := fun args =>
    (plain_readArgument args 1).then fun _ => confined_at args
  have makeEmpty (className : String) : Confines (makeEmpty className) :=
    fun _ => (keepsLists_ofItems className []).confined
  have makeSized : Confines makeSized := fun args =>
    ((reads_readArgument args 0).keepsLists.bind fun _ =>
      KeepsLists.unless _ fun _ => keepsLists_ofItems _ _).confined
  have copy : Confines copy := by
    intro args
    refine KeepsLists.confined ((reads_readArgument args 0).keepsLists.bind fun source => ?_)
    refine reads_get.keepsLists.bind fun heap => ?_
    split
    · exact keepsLists_ofItems _ _
    · exact (reads_throw _).keepsLists
  simp [members, constructorSpec, instanceSpec, add, size, isEmpty, contains, clear, insert, get,
    set, remove, makeEmpty, makeSized, copy, addFirst]

end Lists

namespace Annotations

theorem keepsLists_ofCheck (check : OutputCheck) : KeepsLists (ofCheck check) :=
  keepsLists_allocate (·.allocateAnalyzer check) fun _ _ _ holds => holds

theorem confines_members : ∀ spec ∈ members, Confines spec.run := by
  have makeContains : Confines makeContains := fun args =>
    ((reads_readArgument args 0).keepsLists.bind fun _ => keepsLists_ofCheck _).confined
  have makeLineCount : Confines makeLineCount := fun args =>
    ((reads_readArgument args 0).keepsLists.bind fun _ =>
      KeepsLists.unless _ fun _ => keepsLists_ofCheck _).confined
  simp [members, constructorSpec, harmless_makeInformation.confines, makeContains, makeLineCount]

end Annotations

theorem confines_members : ∀ spec ∈ members, Confines spec.run := by
  intro spec listed
  simp only [members, List.mem_append] at listed
  rcases listed with ((((objects | strings) | numbers) | builders) | lists) | annotations
  · exact Object.confines_members spec objects
  · exact (Strings.harmless_members spec strings).confines
  · exact (Numbers.harmless_members spec numbers).confines
  · exact Builder.confines_members spec builders
  · exact Lists.confines_members spec lists
  · exact Annotations.confines_members spec annotations

/-- A call of a member of the library. -/
structure Call where
  /-- The member. -/
  member : MemberSpec
  /-- It is of the library. -/
  listed : member ∈ members
  /-- The arguments, of any types. -/
  args : List Value

namespace Call

/-- The heap after a call, whether it fails or not. -/
def after (heap : Heap) (call : Call) : Heap := ((call.member.run call.args).run.run heap).2

/-- The heap after some calls. -/
def afterAll (heap : Heap) (calls : List Call) : Heap := calls.foldl after heap

/-- The calls on an object. -/
def on (reference : ObjectRef) (calls : List Call) : List Call :=
  calls.filter fun call => Receives reference call.args

/-- After some calls a list holds what it would hold if only the calls on it had been made, even
from another heap where it held the same. -/
theorem exists_afterAll {reference : ObjectRef} {items : List Value} (calls : List Call)
    {first second : Heap} (holds : first.list? reference = some items)
    (again : second.list? reference = some items) :
    ∃ left, (afterAll first calls).list? reference = some left ∧
      (afterAll second (on reference calls)).list? reference = some left := by
  induction calls generalizing first second items with
  | nil => exact ⟨items, holds, again⟩
  | cons call calls ih =>
    obtain ⟨left, same, becomes⟩ :=
      confines_members call.member call.listed call.args reference items
    by_cases receives : Receives reference call.args
    · rw [on, List.filter_cons_of_pos (by simpa using receives)]
      exact ih (becomes first holds) (becomes second again)
    · rw [on, List.filter_cons_of_neg (by simpa using receives)]
      obtain rfl := same receives
      exact ih (becomes first holds) again

end Call

namespace Lists

/-- A list is copied to a new one with the same items. -/
theorem run_copy {heap : Heap} {source : ObjectRef} {items : List Value}
    (holds : heap.list? source = some items) :
    (copy [.object source]).run.run heap =
      (.ok (.object (heap.next arrayListName)),
        (heap.allocate arrayListName (.list items)).2) := by
  rw [copy, run_receiver, run_get_bind, holds]
  rfl

/-- On every heap, each operation on a list with no more items than a 32-bit number can count does
to them what it is to do to a sequence, and changes no other object, unless its index is out of
range; then it fails and changes nothing.  A copy of the list is a new one with the same items, and
whatever calls are made later, each of the two holds what it would hold if only the calls on it had
been made, and operations on it have the outcomes that they would have then. -/
theorem refines_sequences {heap : Heap} {reference : ObjectRef} {items : List Value}
    (holds : heap.list? reference = some items) (short : items.length ≤ Width.int.greatest) :
    (∀ operation : Operation,
      (operation.Within items.length → ∃ result left after,
        (operation.on reference).run.run heap = (.ok result, after) ∧
          Operation.Does items operation result left ∧ after.list? reference = some left ∧
          Heap.ChangedAt reference heap after) ∧
      (¬operation.Within items.length → ∃ index limit,
        operation.limit? items.length = some (index, limit) ∧
          (operation.on reference).run.run heap =
            (.error (outOfBounds index.value limit), heap))) ∧
    ∃ copied after, (copy [.object reference]).run.run heap = (.ok (.object copied), after) ∧
      copied.className = arrayListName ∧ heap.state? copied = none ∧
      after.list? copied = some items ∧ Heap.ChangedAt copied heap after ∧
      ∀ calls, ∀ list ∈ [reference, copied], ∃ left,
        (Call.afterAll after calls).list? list = some left ∧
          (Call.afterAll after (Call.on list calls)).list? list = some left ∧
          (left.length ≤ Width.int.greatest → ∀ operation : Operation,
            ((operation.on list).run.run (Call.afterAll after calls)).1 =
              ((operation.on list).run.run (Call.afterAll after (Call.on list calls))).1) := by
  refine ⟨fun operation => ?_, ?_⟩
  · have outcome := operation.outcome holds short
    generalize (operation.on reference).run.run heap = ran at outcome
    cases outcome with
    | @done result left within does =>
      refine ⟨fun _ => ⟨result, left, _, rfl, does, Heap.list?_replace holds left, ?_⟩, ?_⟩
      · exact heap.changedAt_replace reference _
      · exact fun outside => absurd within outside
    | @refused index limit limited outside =>
      refine ⟨fun within => absurd (within index limit limited) outside, fun _ => ?_⟩
      exact ⟨index, limit, limited, rfl⟩
  · have new := heap.list?_allocate arrayListName items
    have old := Heap.list?_allocate_of_some holds arrayListName (.list items)
    refine ⟨_, _, run_copy holds, rfl, heap.state?_next _, new, heap.changedAt_allocate _ _, ?_⟩
    intro calls list member
    have held : (heap.allocate arrayListName (.list items)).2.list? list = some items := by
      rcases List.mem_pair.1 member with rfl | rfl
      · exact old
      · exact new
    obtain ⟨left, all, own⟩ := Call.exists_afterAll calls held held
    exact ⟨left, all, own, fun short operation => operation.outcome_congr all own short⟩

/-- A list that contains itself. -/
def knot : ObjectRef := ⟨0, arrayListName⟩

/-- The heap of a list that contains itself, and of one that contains it twice. -/
def tangled : Heap where
  states := [.list [.null, .object knot], .list [.object knot, .object knot]]

/-- The call that an operation on a list makes. -/
def Operation.call (operation : Operation) (reference : ObjectRef) : Call :=
  ⟨operation.member, operation.member_mem, .object reference :: operation.args⟩

/-- A list that contains itself is found in itself, and its copy stays when it is cleared. -/
theorem refines_sequences_tangled :
    tangled.list? knot = some [.null, .object knot] ∧
      ([Value.null, .object knot].length : Int) ≤ Width.int.greatest ∧
      (∃ after, ((Operation.contains (.object knot)).on knot).run.run tangled =
        (.ok (.bool true), after) ∧ Heap.ChangedAt knot tangled after) ∧
      ∃ copied after, (copy [.object knot]).run.run tangled = (.ok (.object copied), after) ∧
        (Call.afterAll after [Operation.clear.call knot]).list? copied =
          some [.null, .object knot] := by
  have holds : tangled.list? knot = some [.null, .object knot] := rfl
  have short : ([Value.null, .object knot].length : Int) ≤ Width.int.greatest := by decide
  obtain ⟨operations, copied, after, runs, -, fresh, new, -, apart⟩ := refines_sequences holds short
  refine ⟨holds, short, ?_, copied, after, runs, ?_⟩
  · obtain ⟨result, left, after, ran, does, -, changed⟩ :=
      (operations (.contains (.object knot))).1 (by rintro _ _ ⟨⟩)
    cases does with
    | @contains _ truth tells =>
      obtain rfl : truth = true := tells.2 ⟨.object knot, by simp, .object rfl⟩
      exact ⟨after, ran, changed⟩
  · obtain ⟨left, holdsAll, holdsOwn, -⟩ := apart [Operation.clear.call knot] copied (by simp)
    have other : ¬Receives copied (Operation.clear.call knot).args := by
      rintro ⟨_, _, ⟨⟩, same⟩
      rw [Heap.state?, ← same] at fresh
      cases fresh
    rw [Call.on, List.filter_cons_of_neg (by simpa using other)] at holdsOwn
    rw [holdsAll, ← holdsOwn]
    exact new

end Lists

end Colloquy.Host
