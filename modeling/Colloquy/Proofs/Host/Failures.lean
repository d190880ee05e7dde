import Colloquy.Host.Library
import Colloquy.Proofs.Catalog.Members

/-!
# Failures of host functions

A host function of the library that fails leaves every object as it was.  Most of them change
nothing at all; those that do change something can fail only before.
-/

namespace Colloquy.Host

section Steps

variable {α β : Type}

/-- The step changes nothing, whatever it returns. -/
def Reads (step : HostM α) : Prop := ∀ heap, (step.run.run heap).2 = heap

/-- The step changes nothing, and its outcome does not depend on the heap. -/
def Plain (step : HostM α) : Prop := ∃ outcome, ∀ heap, step.run.run heap = (outcome, heap)

/-- The step has a result. -/
def Succeeds (step : HostM α) : Prop := ∀ heap, ∃ result, (step.run.run heap).1 = .ok result

/-- The step changes nothing if it fails. -/
def FailsCleanly (step : HostM α) : Prop :=
  ∀ ⦃heap message after⦄, step.run.run heap = (.error message, after) → after = heap

theorem reads_pure (result : α) : Reads (pure result) := fun _ => rfl

theorem reads_throw (message : String) : Reads (throw message : HostM α) := fun _ => rfl

theorem reads_get : Reads (get : HostM Heap) := fun _ => rfl

theorem Reads.bind {step : HostM α} {next : α → HostM β} (first : Reads step)
    (rest : ∀ value, Reads (next value)) : Reads (step >>= next) := by
  intro heap
  have same := first heap
  rw [ExceptT.run_bind, StateT.run_bind]
  cases outcome : step.run.run heap with
  | mk value middle =>
    rw [outcome] at same
    cases value with
    | error message => exact same
    | ok value => exact (rest value middle).trans same

theorem plain_pure (result : α) : Plain (pure result) := ⟨.ok result, fun _ => rfl⟩

theorem plain_throw (message : String) : Plain (throw message : HostM α) :=
  ⟨.error message, fun _ => rfl⟩

theorem Plain.bind {step : HostM α} {next : α → HostM β} (first : Plain step)
    (rest : ∀ value, Plain (next value)) : Plain (step >>= next) := by
  obtain ⟨outcome, runs⟩ := first
  cases outcome with
  | error message =>
    refine ⟨.error message, fun heap => ?_⟩
    rw [ExceptT.run_bind, StateT.run_bind, runs]
    rfl
  | ok value =>
    obtain ⟨outcome, later⟩ := rest value
    refine ⟨outcome, fun heap => ?_⟩
    rw [ExceptT.run_bind, StateT.run_bind, runs]
    exact later heap

theorem Plain.reads {step : HostM α} (plain : Plain step) : Reads step := by
  obtain ⟨outcome, runs⟩ := plain
  exact fun heap => congrArg Prod.snd (runs heap)

theorem Reads.failsCleanly {step : HostM α} (reads : Reads step) : FailsCleanly step := by
  intro heap message after fails
  have same := reads heap
  rwa [fails] at same

theorem Succeeds.failsCleanly {step : HostM α} (succeeds : Succeeds step) : FailsCleanly step := by
  intro heap message after fails
  obtain ⟨result, success⟩ := succeeds heap
  rw [fails] at success
  cases success

/-- A step that only reads may stand before one that fails cleanly. -/
theorem Reads.then {step : HostM α} {next : α → HostM β} (first : Reads step)
    (rest : ∀ value, FailsCleanly (next value)) : FailsCleanly (step >>= next) := by
  intro heap message after fails
  have same := first heap
  rw [ExceptT.run_bind, StateT.run_bind] at fails
  cases outcome : step.run.run heap with
  | mk value middle =>
    rw [outcome] at same fails
    obtain rfl : middle = heap := same
    cases value with
    | error message =>
      cases fails
      rfl
    | ok value => exact rest value fails

/-- A step may be refused before it is taken. -/
theorem FailsCleanly.unless {condition : Prop} [Decidable condition] (message : String)
    {next : PUnit → HostM β} (rest : ∀ value, FailsCleanly (next value)) :
    FailsCleanly (if condition then throw message >>= next else next ⟨⟩) := by
  split
  · exact (reads_throw message).then rest
  · exact rest _

theorem Reads.unless {condition : Prop} [Decidable condition] (message : String)
    {next : PUnit → HostM β} (rest : ∀ value, Reads (next value)) :
    Reads (if condition then throw message >>= next else next ⟨⟩) := by
  split
  · exact (reads_throw message).bind rest
  · exact rest _

/-- To change the heap and return a result does not fail. -/
theorem succeeds_modify (change : Heap → Heap) (result : α) :
    Succeeds (do modify change; return result : HostM α) :=
  fun _ => ⟨result, rfl⟩

/-- To put something on the heap and return it does not fail. -/
theorem succeeds_allocate (allocate : Heap → α × Heap) :
    Succeeds (do let (result, heap) := allocate (← get); set heap; return result : HostM α) :=
  fun heap => ⟨(allocate heap).1, rfl⟩

end Steps

section Arguments

variable (args : List Value) (index : Nat)

theorem plain_argument : Plain (argument args index) := by
  unfold argument
  split
  · exact plain_pure _
  · exact plain_throw _

theorem reads_argument : Reads (argument args index) := (plain_argument args index).reads

theorem plain_readArgument {α : Type} {read : Value → Option α} {message : Value → String} :
    Plain (readArgument read message args index) := by
  refine (plain_argument args index).bind fun value => ?_
  split
  · exact plain_pure _
  · exact plain_throw _

theorem reads_readArgument {α : Type} {read : Value → Option α} {message : Value → String} :
    Reads (readArgument read message args index) :=
  (plain_readArgument args index).reads

theorem reads_printed (value : Value) : Reads (printed value) :=
  reads_get.bind fun _ => reads_pure _

theorem plain_lengthValue (length : Nat) : Plain (lengthValue length) := by
  unfold lengthValue
  split
  · exact plain_pure _
  · exact plain_throw _

theorem reads_lengthValue (length : Nat) : Reads (lengthValue length) :=
  (plain_lengthValue length).reads

theorem plain_indexBelow (place : Int) (length : Nat) : Plain (indexBelow place length) := by
  unfold indexBelow
  split
  · exact plain_pure _
  · exact plain_throw _

theorem reads_indexBelow (place : Int) (length : Nat) : Reads (indexBelow place length) :=
  (plain_indexBelow place length).reads

end Arguments

theorem Reads.mapM {α β : Type} {step : α → HostM β} (each : ∀ item, Reads (step item))
    (items : List α) : Reads (items.mapM step) := by
  induction items with
  | nil => exact reads_pure []
  | cons item items ih =>
    rw [List.mapM_cons]
    exact (each item).bind fun _ => ih.bind fun _ => reads_pure _

/-- The host function leaves every object as it was if it fails. -/
def Careful (native : Native) : Prop := ∀ args, FailsCleanly (native args)

/-- The host function changes nothing, whether it fails or not. -/
def Harmless (native : Native) : Prop := ∀ args, Reads (native args)

theorem Harmless.careful {native : Native} (harmless : Harmless native) : Careful native :=
  fun args => (harmless args).failsCleanly

namespace Object

theorem harmless_toText : Harmless toText := fun args =>
  (reads_argument args 0).bind fun value => (reads_printed value).bind fun _ => reads_pure _

theorem harmless_equals : Harmless equals := fun args =>
  (reads_argument args 0).bind fun _ => (reads_argument args 1).bind fun _ => reads_pure _

theorem careful_members : ∀ spec ∈ members, Careful spec.run := by
  have make : Careful make := fun _ => (succeeds_allocate Heap.allocatePlain).failsCleanly
  simp [members, constructorSpec, instanceSpec, make, harmless_toText.careful,
    harmless_equals.careful]

end Object

namespace Strings

theorem harmless_mapped (change : List Char → List Char) : Harmless (mapped change) := fun args =>
  (reads_readArgument args 0).bind fun _ => reads_pure _

theorem reads_slice (text : String) (first last : Int) : Reads (slice text first last) := by
  unfold slice
  split
  · exact reads_pure _
  · exact reads_throw _

theorem harmless_substringFrom : Harmless substringFrom := by
  intro args
  refine (reads_readArgument args 0).bind fun text => ?_
  split
  · exact (reads_readArgument args 1).bind fun _ => reads_slice _ _ _
  · exact reads_throw _

theorem harmless_substring : Harmless substring := fun args =>
  (reads_readArgument args 0).bind fun _ => (reads_readArgument args 1).bind fun _ =>
    (reads_readArgument args 2).bind fun _ => reads_slice _ _ _

theorem harmless_charAt : Harmless charAt := fun args =>
  (reads_readArgument args 0).bind fun _ => (reads_readArgument args 1).bind fun _ =>
    (reads_indexBelow _ _).bind fun _ => reads_pure _

theorem harmless_contains : Harmless contains := by
  intro args
  refine (reads_argument args 1).bind fun needle => ?_
  refine Reads.unless _ fun _ => (reads_printed needle).bind fun _ => ?_
  exact (reads_readArgument args 0).bind fun _ => reads_pure _

theorem harmless_repeatText : Harmless repeatText := by
  intro args
  refine (reads_readArgument args 1).bind fun count => ?_
  refine Reads.unless _ fun _ => ?_
  exact (reads_readArgument args 0).bind fun _ => reads_pure _

theorem harmless_join : Harmless join := by
  intro args
  refine (reads_argument args 0).bind fun separator => ?_
  refine (reads_printed separator).bind fun _ => (reads_argument args 1).bind fun items => ?_
  split
  · exact (Reads.mapM reads_printed _).bind fun _ => reads_pure _
  · exact reads_throw _

theorem harmless_members : ∀ spec ∈ members, Harmless spec.run := by
  have length : Harmless length := fun args =>
    (reads_readArgument args 0).bind fun _ => reads_lengthValue _
  have concat : Harmless concat := fun args =>
    (reads_readArgument args 0).bind fun _ =>
      (reads_readArgument args 1).bind fun _ => reads_pure _
  have isEmpty : Harmless isEmpty := fun args =>
    (reads_readArgument args 0).bind fun _ => reads_pure _
  have valueOf : Harmless valueOf := fun args =>
    (reads_argument args 0).bind fun value => (reads_printed value).bind fun _ => reads_pure _
  simp [members, constructorSpec, instanceSpec, staticSpec, make, harmless_mapped, length, concat,
    harmless_charAt, harmless_substringFrom, harmless_substring, harmless_contains, isEmpty,
    harmless_repeatText, valueOf, harmless_join]

end Strings

namespace Numbers

theorem harmless_reading (read? : List Char → Option Number) : Harmless (reading read?) := by
  intro args
  refine (reads_readArgument args 0).bind fun text => ?_
  split
  · exact reads_pure _
  · exact reads_throw _

theorem harmless_intSum : Harmless intSum := by
  intro args
  refine (reads_readArgument args 0).bind fun left => ?_
  refine (reads_readArgument args 1).bind fun right => ?_
  split
  · exact reads_pure _
  · exact reads_throw _

theorem harmless_onTwo {α : Type} {read : List Value → Nat → HostM α}
    (reads : ∀ args index, Reads (read args index)) (result : α → Value)
    (function : α → α → α) : Harmless (onTwo read result function) :=
  fun args => (reads args 0).bind fun _ => (reads args 1).bind fun _ => reads_pure _

theorem harmless_onDouble (function : Double → Double) : Harmless (onDouble function) :=
  fun args => (reads_readArgument args 0).bind fun _ => reads_pure _

theorem harmless_wholeOf (width : Width) : Harmless (wholeOf width) :=
  fun args => (reads_readArgument args 0).bind fun _ => reads_pure _

theorem harmless_members : ∀ spec ∈ members, Harmless spec.run := by
  have intIdentity : Harmless intIdentity := fun args =>
    (reads_readArgument args 0).bind fun _ => reads_pure _
  have intText : Harmless intText := fun args =>
    (reads_readArgument args 0).bind fun _ => reads_pure _
  have doubleOf : Harmless doubleOf := fun args =>
    (reads_readArgument args 0).bind fun _ => reads_pure _
  have absInt : Harmless absInt := fun args =>
    (reads_readArgument args 0).bind fun _ => reads_pure _
  have ints (function : Int → Int → Int) : Harmless (onInts function) :=
    harmless_onTwo (fun args index => reads_readArgument args index) _ _
  have longs (function : Int → Int → Int) : Harmless (onLongs function) :=
    harmless_onTwo (fun args index => reads_readArgument args index) _ _
  have doubles (function : Double → Double → Double) : Harmless (onDoubles function) :=
    harmless_onTwo (fun args index => reads_readArgument args index) _ _
  simp [members, instanceSpec, staticSpec, parseWhole, parseDouble, harmless_reading, intIdentity,
    intText, harmless_intSum, harmless_wholeOf, doubleOf, ints, longs, doubles, harmless_onDouble,
    absInt]

end Numbers

namespace Builder

theorem failsCleanly_ofText (text : String) : FailsCleanly (ofText text) :=
  (succeeds_allocate fun heap => heap.allocate className (.builder text)).failsCleanly

theorem reads_textOf (reference : ObjectRef) : Reads (textOf reference) := by
  refine reads_get.bind fun heap => ?_
  split
  · exact reads_pure _
  · exact reads_throw _

/-- A builder is changed once its text is known, and that does not fail. -/
theorem careful_change (edit : String → String) : Careful (change edit) :=
  fun args => (reads_readArgument args 0).then fun reference =>
    (reads_textOf reference).then fun _ => (succeeds_modify _ _).failsCleanly

theorem harmless_length : Harmless length := fun args =>
  (reads_readArgument args 0).bind fun reference => (reads_textOf reference).bind fun _ =>
    reads_lengthValue _

theorem careful_members : ∀ spec ∈ members, Careful spec.run := by
  have makeEmpty : Careful makeEmpty := fun _ => failsCleanly_ofText _
  have make : Careful make := fun args =>
    (reads_readArgument args 0).then fun _ => failsCleanly_ofText _
  have append : Careful append := fun args =>
    (reads_argument args 1).then fun value => (reads_printed value).then fun _ =>
      careful_change _ args
  simp [members, constructorSpec, instanceSpec, makeEmpty, make, append, harmless_length.careful,
    reverse, careful_change, Object.harmless_toText.careful]

end Builder

namespace Lists

theorem failsCleanly_ofItems (className : String) (items : List Value) :
    FailsCleanly (ofItems className items) :=
  (succeeds_allocate fun heap => heap.allocate className (.list items)).failsCleanly

/-- The items of a list are stored once the step is done with them, and that does not fail. -/
theorem failsCleanly_onItems {step : List Value → HostM (Value × List Value)}
    (reads : ∀ items, Reads (step items)) (args : List Value) :
    FailsCleanly (onItems args step) := by
  refine (reads_readArgument args 0).then fun reference => reads_get.then fun heap => ?_
  split
  · exact (reads _).then fun _ => (succeeds_modify _ _).failsCleanly
  · exact (reads_throw _).failsCleanly

/-- A member that works on the item at an index. -/
theorem failsCleanly_at {length : List Value → Nat} {index : Int}
    {result : List Value → Nat → Value × List Value} (args : List Value) :
    FailsCleanly (onItems args fun items => do
      let place ← indexBelow index (length items)
      return result items place) :=
  failsCleanly_onItems (fun _ => (reads_indexBelow _ _).bind fun _ => reads_pure _) args

theorem careful_insert : Careful insert := fun args =>
  (reads_readArgument args 1).then fun _ => (reads_argument args 2).then fun _ =>
    failsCleanly_at args

theorem careful_get : Careful get := fun args =>
  (reads_readArgument args 1).then fun _ => failsCleanly_at args

theorem careful_set : Careful set := fun args =>
  (reads_readArgument args 1).then fun _ => (reads_argument args 2).then fun _ =>
    failsCleanly_at args

theorem careful_remove : Careful remove := fun args =>
  (reads_readArgument args 1).then fun _ => failsCleanly_at args

/-- A member that changes the items after it has read an item. -/
theorem careful_with {result : Value → List Value → Value × List Value} :
    Careful (fun args => do
      let item ← argument args 1
      onItems args fun items => return result item items) :=
  fun args => (reads_argument args 1).then fun _ =>
    failsCleanly_onItems (fun _ => reads_pure _) args

theorem careful_makeEmpty (className : String) : Careful (makeEmpty className) :=
  fun _ => failsCleanly_ofItems className []

theorem careful_makeSized : Careful makeSized := fun args =>
  (reads_readArgument args 0).then fun _ => FailsCleanly.unless _ fun _ => failsCleanly_ofItems _ _

theorem careful_copy : Careful copy := by
  intro args
  refine (reads_readArgument args 0).then fun source => reads_get.then fun heap => ?_
  split
  · exact failsCleanly_ofItems _ _
  · exact (reads_throw _).failsCleanly

theorem careful_members : ∀ spec ∈ members, Careful spec.run := by
  have add : Careful add := careful_with
  have contains : Careful contains := careful_with
  have addFirst : Careful addFirst := careful_with
  have clear : Careful clear := failsCleanly_onItems fun _ => reads_pure _
  have isEmpty : Careful isEmpty := failsCleanly_onItems fun _ => reads_pure _
  have size : Careful size := failsCleanly_onItems fun _ =>
    (reads_lengthValue _).bind fun _ => reads_pure _
  simp [members, constructorSpec, instanceSpec, add, size, isEmpty, contains, clear,
    careful_insert, careful_get, careful_set, careful_remove, careful_makeEmpty,
    careful_makeSized, careful_copy, addFirst]

end Lists

namespace Annotations

theorem failsCleanly_ofCheck (check : OutputCheck) : FailsCleanly (ofCheck check) :=
  (succeeds_allocate fun heap => heap.allocateAnalyzer check).failsCleanly

theorem harmless_makeInformation : Harmless makeInformation := fun args =>
  (reads_readArgument args 0).bind fun _ => reads_pure _

theorem careful_members : ∀ spec ∈ members, Careful spec.run := by
  have makeContains : Careful makeContains := fun args =>
    (reads_readArgument args 0).then fun _ => failsCleanly_ofCheck _
  have makeLineCount : Careful makeLineCount := fun args =>
    (reads_readArgument args 0).then fun _ => FailsCleanly.unless _ fun _ => failsCleanly_ofCheck _
  simp [members, constructorSpec, harmless_makeInformation.careful, makeContains, makeLineCount]

end Annotations

/-- What holds of members where they are defined holds in the catalog that they are added to, which
declares no other types. -/
theorem each_of_foldlM {holds : MemberKey → Member → Prop} {specs : List MemberSpec}
    {start finish : Catalog} (each : start.Each holds)
    (fresh : ∀ spec ∈ specs, ∀ signature,
      start.parseSignature spec.signature = .ok signature →
        holds ⟨spec.typeName, spec.name⟩ ⟨spec.kind, signature, spec.run⟩)
    (built : specs.foldlM define start = .ok finish) :
    finish.Each holds ∧ finish.hierarchy = start.hierarchy := by
  induction specs generalizing start with
  | nil =>
    cases built
    exact ⟨each, rfl⟩
  | cons spec specs ih =>
    obtain ⟨here, others⟩ := List.forall_mem_cons.1 fresh
    rw [List.foldlM_cons] at built
    cases defined : define start spec with
    | error error =>
      rw [defined] at built
      cases built
    | ok middle =>
      rw [defined] at built
      obtain ⟨further, same⟩ := each.define here defined
      -- signatures are parsed by the declared types only
      have parses (text : String) : middle.parseSignature text = start.parseSignature text := by
        have resolves : middle.resolver = start.resolver := by
          funext name
          simp only [Catalog.resolver, same]
        rw [Catalog.parseSignature, Catalog.parseSignature, resolves]
      have rest := ih further (fun other member signature parsed => others other member signature
        (by rwa [← parses])) built
      rwa [same] at rest

/-- What holds of the members of the library where they are defined holds in its catalog, which has
the types of the library. -/
theorem each_of_catalog {holds : MemberKey → Member → Prop}
    (fresh : ∀ spec ∈ members, ∀ signature,
      typesOnly.parseSignature spec.signature = .ok signature →
        holds ⟨spec.typeName, spec.name⟩ ⟨spec.kind, signature, spec.run⟩)
    {catalog : Catalog} (built : Host.catalog = .ok catalog) :
    catalog.Each holds ∧ catalog.hierarchy = typesOnly.hierarchy := by
  refine each_of_foldlM ?_ fresh built
  intro key member listed
  cases listed

/-- What holds of every host function of the library holds of every function of its catalog. -/
theorem every_of_catalog {holds : Native → Prop} (each : ∀ spec ∈ members, holds spec.run)
    {catalog : Catalog} (built : Host.catalog = .ok catalog) : catalog.Every holds := by
  have placed : catalog.Each fun _ member => holds member.run :=
    (each_of_catalog (fun spec member _ _ => each spec member) built).1
  exact placed

/-- What the catalog of the library has can be found out by building it. -/
theorem exists_catalog {holds : Catalog → Prop} [DecidablePred holds]
    (found : Host.catalog.toOption.any fun catalog => holds catalog) :
    ∃ catalog, Host.catalog = .ok catalog ∧ holds catalog := by
  cases built : Host.catalog with
  | error error =>
    rw [built] at found
    cases found
  | ok catalog =>
    rw [built] at found
    exact ⟨catalog, rfl, of_decide_eq_true found⟩

/-- The library has a catalog: its signatures are well formed, and its members are of declared
types. -/
theorem catalog_built : ∃ catalog, Host.catalog = .ok catalog := by
  have found : ∃ catalog, Host.catalog = .ok catalog ∧ True := exists_catalog (by decide +kernel)
  obtain ⟨catalog, built, -⟩ := found
  exact ⟨catalog, built⟩

/-- Every host function of the library is careful. -/
theorem every_careful {catalog : Catalog} (built : Host.catalog = .ok catalog) :
    catalog.Every Careful := by
  refine every_of_catalog (fun spec listed => ?_) built
  simp only [members, List.mem_append] at listed
  rcases listed with ((((objects | strings) | numbers) | builders) | lists) | annotations
  · exact Object.careful_members spec objects
  · exact (Strings.harmless_members spec strings).careful
  · exact (Numbers.harmless_members spec numbers).careful
  · exact Builder.careful_members spec builders
  · exact Lists.careful_members spec lists
  · exact Annotations.careful_members spec annotations

end Colloquy.Host
