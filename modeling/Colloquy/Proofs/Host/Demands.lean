import Colloquy.Proofs.Host.Faults
import Colloquy.Proofs.Host.Worlds

/-!
# What host functions demand of their arguments

Each host function of the library relies on its arguments being of certain forms.  On arguments
that are, it fails only for a reason that lies in their values: an index or a number out of range,
a text that is no number, or a sum or a length that is no 32-bit number.  Whatever its arguments
are, it leads from sound heaps to sound heaps.
-/

namespace Colloquy.Host

/-- What a host function relies on in an argument. -/
inductive Demand where
  | something
  | text
  | whole (width : Width)
  | double
  | number
  | builder
  | list
  | array
deriving DecidableEq

/-- The value is what is demanded. -/
def Demand.Met : Demand → Value → Prop
  | something, value => ¬value.isNull
  | text, value => ∃ content, value = .str content
  | whole width, value => ∃ number : Whole, value = .number (.whole number) ∧ number.width = width
  | double, value => ∃ number, value = .number (.double number)
  | number, value => ∃ number, value = .number number
  | builder, value =>
    ∃ reference : ObjectRef, value = .object reference ∧ reference.className = Builder.className
  | list, value => ∃ reference : ObjectRef, value = .object reference ∧
      (reference.className = Lists.arrayListName ∨ reference.className = Lists.linkedListName)
  | array, value => ∃ items, value = .array items

/-- The arguments are what is demanded of each of them. -/
def Meets (demands : List Demand) (args : List Value) : Prop :=
  ∀ (index : Nat) (demand : Demand), demands[index]? = some demand →
    ∃ value, args[index]? = some value ∧ demand.Met value

/-- The message is a fault of the values, or the arguments are not what is demanded. -/
def Blamed (demands : List Demand) (args : List Value) (message : String) : Prop :=
  Fault message ∨ ¬Meets demands args

/-- The heaps whose texts are spelled in an alphabet. -/
def world (alphabet : Alphabet) : World Heap where
  heap := id
  Sound heap := heap.Sound alphabet

/-- The host function leads from sound heaps to sound heaps and returns sound values, and on
arguments that are what is demanded it fails with faults only. -/
def Safe (demands : List Demand) (native : Native) : Prop :=
  ∀ ⦃alphabet heap args⦄, (∀ arg ∈ args, Value.Sound alphabet heap arg) →
    (world alphabet).Ensures (native args) heap (fun after result => result.Sound alphabet after)
      (Blamed demands args)

/-- A host function that only reads is safe if it finds sound values. -/
theorem safe_of_finds {demands : List Demand} {native : Native}
    (finds : ∀ {alphabet : Alphabet} {heap : Heap} {args : List Value}, heap.Sound alphabet →
      (∀ arg ∈ args, arg.Sound alphabet heap) →
        Finds (native args) heap (Value.Sound alphabet heap) (Blamed demands args)) :
    Safe demands native :=
  fun _ _ _ sound => World.ensures_of_sound fun heapSound =>
    (finds heapSound sound).ensures fun _ holds => holds

section Arguments

variable {demands : List Demand} {args : List Value} {heap : Heap} {index : Nat}

theorem Blamed.of_fault {message : String} (fault : Fault message) : Blamed demands args message :=
  .inl fault

/-- An argument that is not what is demanded is to blame. -/
theorem Blamed.of_unmet {demand : Demand} {value : Value} {message : String}
    (promised : demands[index]? = some demand) (given : args[index]? = some value)
    (unmet : ¬demand.Met value) : Blamed demands args message := by
  refine .inr fun meets => ?_
  obtain ⟨other, found, met⟩ := meets index demand promised
  obtain rfl : value = other := Option.some.inj (given.symm.trans found)
  exact unmet met

theorem finds_argument {demand : Demand} (promised : demands[index]? = some demand) :
    Finds (argument args index) heap (fun value => args[index]? = some value)
      (Blamed demands args) := by
  unfold argument
  split
  · rename_i value given
    exact finds_pure given
  · rename_i absent
    refine finds_throw (.inr fun meets => ?_)
    obtain ⟨value, given, -⟩ := meets index demand promised
    rw [absent] at given
    cases given

/-- An argument of the demanded form is read. -/
theorem finds_readArgument {α : Type} {read : Value → Option α} {message : Value → String}
    {demand : Demand} {good : α → Prop} (promised : demands[index]? = some demand)
    (reads : ∀ value, demand.Met value → (read value).isSome)
    (made : ∀ value result, args[index]? = some value → read value = some result → good result) :
    Finds (readArgument read message args index) heap good (Blamed demands args) := by
  refine (finds_argument promised).bind fun value given => ?_
  split
  · rename_i result known
    exact finds_pure (made value result given known)
  · rename_i unread
    refine finds_throw (.of_unmet promised given fun met => ?_)
    have known := reads value met
    rw [unread] at known
    cases known

theorem finds_stringArgument (promised : demands[index]? = some .text) :
    Finds (stringArgument args index) heap (fun text => args[index]? = some (.str text))
      (Blamed demands args) := by
  refine finds_readArgument promised (fun value met => ?_) fun value text given known => ?_
  · obtain ⟨content, rfl⟩ := met
    rfl
  · cases value <;> cases known
    exact given

theorem isSome_whole? {width : Width} {value : Value} (met : (Demand.whole width).Met value) :
    (value.whole? width).isSome := by
  obtain ⟨number, rfl, fits⟩ := met
  simp [Value.whole?, fits]

theorem finds_intArgument (promised : demands[index]? = some (.whole .int)) :
    Finds (intArgument args index) heap (fun _ => True) (Blamed demands args) :=
  finds_readArgument promised (fun _ => isSome_whole?) fun _ _ _ _ => trivial

theorem finds_longArgument (promised : demands[index]? = some (.whole .long)) :
    Finds (longArgument args index) heap (fun _ => True) (Blamed demands args) :=
  finds_readArgument promised (fun _ => isSome_whole?) fun _ _ _ _ => trivial

theorem finds_doubleArgument (promised : demands[index]? = some .double) :
    Finds (doubleArgument args index) heap (fun _ => True) (Blamed demands args) :=
  finds_readArgument promised (by rintro _ ⟨number, rfl⟩; rfl) fun _ _ _ _ => trivial

theorem finds_numberArgument (promised : demands[index]? = some .number) :
    Finds (Numbers.numberArgument args index) heap (fun _ => True) (Blamed demands args) :=
  finds_readArgument promised (by rintro _ ⟨number, rfl⟩; rfl) fun _ _ _ _ => trivial

/-- An object is found wherever a string builder or a list is demanded. -/
theorem finds_objectArgument {demand : Demand} (promised : demands[index]? = some demand)
    (objects : ∀ value, demand.Met value → ∃ reference, value = .object reference) :
    Finds (objectArgument args index) heap
      (fun reference => args[index]? = some (.object reference)) (Blamed demands args) := by
  refine finds_readArgument promised (fun value met => ?_) fun value reference given known => ?_
  · obtain ⟨reference, rfl⟩ := objects value met
    rfl
  · cases value <;> cases known
    exact given

/-- The printed form of a sound value is spelled in the alphabet. -/
theorem finds_printed {alphabet : Alphabet} {value : Value} {expected : String → Prop}
    (heapSound : heap.Sound alphabet) (sound : value.Sound alphabet heap) :
    Finds (printed value) heap (fun text => alphabet.Spells text.toList) expected :=
  ⟨.ok (value.text heap), rfl, sound.spells_text heapSound⟩

theorem finds_lengthValue (alphabet : Alphabet) (length : Nat) :
    Finds (lengthValue length) heap (Value.Sound alphabet heap) (Blamed demands args) := by
  unfold lengthValue
  split
  · rename_i value fits
    obtain ⟨number, -, rfl⟩ := Option.map_eq_some_iff.1 fits
    exact finds_pure (.number number)
  · rename_i unfit
    refine finds_throw (.of_fault (.length fun fits => ?_))
    rw [Value.int?, Number.ofInt?, Option.map_map, Option.map_eq_none_iff,
      Whole.ofInt?_eq_none_iff] at unfit
    exact unfit fits

theorem finds_indexBelow (index : Int) (length : Nat) :
    Finds (indexBelow index length) heap (· < length) (Blamed demands args) := by
  unfold indexBelow
  split
  · rename_i within
    exact finds_pure (by omega)
  · rename_i outside
    exact finds_throw (.of_fault (.index outside))

end Arguments

end Colloquy.Host
