import Colloquy.Proofs.Host.Demands
import Colloquy.Proofs.Text.Trim

/-!
# Safe host functions

Each function of the library, with what it demands of its arguments.
-/

namespace Colloquy.Host

variable {alphabet : Alphabet} {heap : Heap} {demands : List Demand} {args : List Value}
  {index : Nat}

/-- A new object whose contents are sound. -/
theorem ensures_allocate (className : String) (state : ObjectState)
    (suits : state.Suits className) (fresh : state.Sound alphabet heap)
    {expected : String → Prop} :
    (world alphabet).Ensures (do
      let (value, heap) := (← get).allocate className state
      set heap
      return value) heap (fun after result => result.Sound alphabet after) expected :=
  fun sound => ⟨⟨sound.allocate className fresh, heap.keeps_allocate className state⟩,
    .object (heap.typed_allocate suits)⟩

/-- Another state for an object, in place of one that suits no other classes. -/
theorem ensures_replace {target : ObjectRef} {old : ObjectState} {result : Value}
    (new : ObjectState) (found : heap.state? target = some old)
    (alike : ∀ className, old.Suits className → new.Suits className)
    (fresh : new.Sound alphabet heap) (sound : result.Sound alphabet heap)
    {expected : String → Prop} :
    (world alphabet).Ensures (do
      modify (·.replace target new)
      return result : HostM Value) heap (fun after result => result.Sound alphabet after)
      expected := by
  have keeps := Heap.keeps_replace found alike
  exact fun heapSound => ⟨⟨heapSound.replace keeps fresh, keeps⟩, sound.later keeps⟩

namespace Object

theorem safe_make : Safe [] make := by
  intro alphabet heap args _ sound
  have numbered : Heap.Keeps heap { heap with plainCount := heap.plainCount + 1 } :=
    Heap.keeps_of_states_eq rfl
  have numberedSound : Heap.Sound alphabet { heap with plainCount := heap.plainCount + 1 } :=
    fun state member => (sound state member).later numbered
  obtain ⟨leads, ends⟩ := ensures_allocate TypeName.object
    (.plain (heap.plainCount + 1)) rfl trivial numberedSound
  exact ⟨⟨leads.sound, numbered.trans leads.keeps⟩, ends⟩

theorem safe_toText (demand : Demand) : Safe [demand] toText :=
  safe_of_finds fun heapSound sound => (finds_argument rfl).bind fun value given =>
    (finds_printed heapSound (sound value (List.mem_of_getElem? given))).bind fun _ spelled =>
      finds_pure (.str spelled)

theorem safe_equals (demand : Demand) : Safe [demand, .something] equals :=
  safe_of_finds fun _ _ => (finds_argument rfl).bind fun _ _ =>
    (finds_argument rfl).bind fun _ _ => finds_pure (.bool _)

end Object

/-- A string argument of a sound call is spelled in the alphabet. -/
theorem spells_of_given (sound : ∀ arg ∈ args, arg.Sound alphabet heap) {text : String}
    (given : args[index]? = some (.str text)) : alphabet.Spells text.toList :=
  Value.spells_of_str (sound _ (List.mem_of_getElem? given))

namespace Strings

theorem safe_mapped {change : List Char → List Char}
    (spells : ∀ {alphabet : Alphabet} {text : List Char}, alphabet.Spells text →
      alphabet.Spells (change text)) : Safe [.text] (mapped change) :=
  safe_of_finds fun _ sound => (finds_stringArgument rfl).bind fun text given =>
    finds_pure (.str (by simpa using spells (spells_of_given sound given)))

theorem safe_make : Safe [.text] make := safe_mapped id

theorem safe_trim : Safe [.text] (mapped Text.trim) :=
  safe_mapped fun spelled => spelled.of_subset (Text.trim_subset _)

theorem safe_length : Safe [.text] length :=
  safe_of_finds fun _ _ => (finds_stringArgument rfl).bind fun _ _ => finds_lengthValue _ _

theorem safe_concat : Safe [.text, .text] concat :=
  safe_of_finds fun _ sound => (finds_stringArgument rfl).bind fun left first =>
    (finds_stringArgument rfl).bind fun right second => by
      refine finds_pure (.str ?_)
      rw [String.toList_append]
      exact Alphabet.spells_append_iff.2 ⟨spells_of_given sound first, spells_of_given sound second⟩

theorem safe_charAt : Safe [.text, .whole .int] charAt := by
  refine safe_of_finds fun _ sound => (finds_stringArgument rfl).bind fun text given => ?_
  refine (finds_intArgument rfl).bind fun place _ => ?_
  refine (finds_indexBelow place text.length).bind fun place within => finds_pure (.char ?_)
  have inside : place < text.toList.length := by rwa [String.length_toList]
  rw [List.getD_eq_getElem?_getD, List.getElem?_eq_getElem inside, Option.getD_some]
  exact spells_of_given sound given _ (List.getElem_mem inside)

theorem finds_slice {text : String} (spelled : alphabet.Spells text.toList) (first last : Int) :
    Finds (slice text first last) heap (Value.Sound alphabet heap) (Blamed demands args) := by
  unfold slice
  split
  · refine finds_pure (.str ?_)
    rw [String.toList_ofList]
    exact spelled.of_subset fun c member => List.mem_of_mem_take (List.mem_of_mem_drop member)
  · rename_i outside
    exact finds_throw (.of_fault (.slice outside))

theorem safe_substringFrom : Safe [.text, .whole .int] substringFrom := by
  refine safe_of_finds fun _ sound => (finds_stringArgument rfl).bind fun text given => ?_
  split
  · exact (finds_intArgument rfl).bind fun first _ =>
      finds_slice (spells_of_given sound given) first _
  · rename_i unfit
    exact finds_throw (.of_fault (.wideLength (Whole.ofInt?_eq_none_iff.1 unfit)))

theorem safe_substring : Safe [.text, .whole .int, .whole .int] substring :=
  safe_of_finds fun _ sound => (finds_stringArgument rfl).bind fun _ given =>
    (finds_intArgument rfl).bind fun first _ => (finds_intArgument rfl).bind fun last _ =>
      finds_slice (spells_of_given sound given) first last

theorem safe_contains : Safe [.text, .something] contains := by
  refine safe_of_finds fun heapSound sound => (finds_argument rfl).bind fun needle given => ?_
  refine Finds.unless (fun absent => .of_unmet rfl given (by simpa [Demand.Met] using absent))
    fun _ => ?_
  refine (finds_printed heapSound (sound needle (List.mem_of_getElem? given))).bind fun _ _ => ?_
  exact (finds_stringArgument rfl).bind fun _ _ => finds_pure (.bool _)

theorem safe_isEmpty : Safe [.text] isEmpty :=
  safe_of_finds fun _ _ => (finds_stringArgument rfl).bind fun _ _ => finds_pure (.bool _)

theorem spells_repeated {text : List Char} (spelled : alphabet.Spells text) (count : Nat) :
    alphabet.Spells (repeated text count) := by
  unfold repeated
  split
  · exact Alphabet.spells_nil
  · refine Alphabet.spells_flatten fun piece member => ?_
    rwa [List.eq_of_mem_replicate member]

theorem safe_repeatText : Safe [.text, .whole .int] repeatText := by
  refine safe_of_finds fun _ sound => (finds_intArgument rfl).bind fun count _ => ?_
  refine Finds.unless (fun negative => .of_fault (.count negative)) fun _ => ?_
  refine (finds_stringArgument rfl).bind fun text given => finds_pure (.str ?_)
  rw [String.toList_ofList]
  exact spells_repeated (spells_of_given sound given) _

theorem safe_valueOf : Safe [.something] valueOf := Object.safe_toText .something

theorem safe_join : Safe [.something, .array] join := by
  refine safe_of_finds fun heapSound sound => (finds_argument rfl).bind fun separator given => ?_
  refine (finds_printed heapSound (sound separator (List.mem_of_getElem? given))).bind
    fun between spelled => (finds_argument rfl).bind fun items listed => ?_
  split
  · rename_i items
    have each := Value.sound_of_array (sound _ (List.mem_of_getElem? listed))
    refine (finds_mapM fun item member => finds_printed heapSound (each item member)).bind
      fun texts spelledTexts => finds_pure (.str ?_)
    exact Alphabet.spells_intercalate spelled spelledTexts
  · rename_i other
    refine finds_throw (.of_unmet rfl listed ?_)
    rintro ⟨items, rfl⟩
    exact other items rfl

end Strings

namespace Numbers

theorem safe_reading {read? : List Char → Option Number}
    (unread : ∀ text, read? text = none →
      (∃ width ∈ [Width.int, .long], Reading.signedWhole? width text = none) ∨
        Reading.double? (Text.trim text) = none) : Safe [.text] (reading read?) := by
  refine safe_of_finds fun _ _ => (finds_stringArgument rfl).bind fun text _ => ?_
  split
  · exact finds_pure (.number _)
  · rename_i fails
    exact finds_throw (.of_fault (.unreadable (unread _ fails)))

theorem safe_parseWhole {width : Width} (parsed : width ∈ [Width.int, .long]) :
    Safe [.text] (parseWhole width) :=
  safe_reading fun _ unread => .inl ⟨width, parsed, Option.map_eq_none_iff.1 unread⟩

theorem safe_parseDouble : Safe [.text] parseDouble :=
  safe_reading fun _ unread => .inr (Option.map_eq_none_iff.1 unread)

theorem safe_intIdentity : Safe [.whole .int] intIdentity :=
  safe_of_finds fun _ _ => (finds_intArgument rfl).bind fun _ _ => finds_pure (.number _)

theorem safe_intText : Safe [.whole .int] intText :=
  safe_of_finds fun _ _ => (finds_intArgument rfl).bind fun number _ =>
    finds_pure (.str (Alphabet.spells_of_isPrintable (isPrintable_toString_int number)))

theorem safe_intSum : Safe [.whole .int, .whole .int] intSum := by
  refine safe_of_finds fun _ _ => (finds_intArgument rfl).bind fun left _ => ?_
  refine (finds_intArgument rfl).bind fun right _ => ?_
  split
  · rename_i sum fits
    obtain ⟨number, -, rfl⟩ := Option.map_eq_some_iff.1 fits
    exact finds_pure (.number number)
  · rename_i unfit
    refine finds_throw (.of_fault (.overflow fun fits => ?_))
    rw [Value.int?, Number.ofInt?, Option.map_map, Option.map_eq_none_iff,
      Whole.ofInt?_eq_none_iff] at unfit
    exact unfit fits

theorem safe_wholeOf (width : Width) : Safe [.number] (wholeOf width) :=
  safe_of_finds fun _ _ => (finds_numberArgument rfl).bind fun _ _ => finds_pure (.number _)

theorem safe_doubleOf : Safe [.number] doubleOf :=
  safe_of_finds fun _ _ => (finds_numberArgument rfl).bind fun _ _ => finds_pure (.number _)

/-- A function of two arguments that are found as demanded is safe if its results are sound. -/
theorem safe_onTwo {α : Type} {demand : Demand} {read : List Value → Nat → HostM α}
    {result : α → Value}
    (finds : ∀ {args : List Value} {heap : Heap} {index : Nat},
      [demand, demand][index]? = some demand →
        Finds (read args index) heap (fun _ => True) (Blamed [demand, demand] args))
    (sound : ∀ {alphabet : Alphabet} {heap : Heap} (found : α),
      (result found).Sound alphabet heap) (function : α → α → α) :
    Safe [demand, demand] (onTwo read result function) :=
  safe_of_finds fun _ _ => (finds rfl).bind fun _ _ => (finds rfl).bind fun _ _ =>
    finds_pure (sound _)

theorem safe_onDouble (function : Double → Double) : Safe [.double] (onDouble function) :=
  safe_of_finds fun _ _ => (finds_doubleArgument rfl).bind fun _ _ => finds_pure (.number _)

theorem safe_absInt : Safe [.whole .int] absInt :=
  safe_of_finds fun _ _ => (finds_intArgument rfl).bind fun _ _ => finds_pure (.number _)

end Numbers

/-- An object argument of a sound call is in a state of its class. -/
theorem typed_of_given (sound : ∀ arg ∈ args, arg.Sound alphabet heap) {reference : ObjectRef}
    (given : args[index]? = some (.object reference)) : reference.Typed heap :=
  Value.typed_of_object (sound _ (List.mem_of_getElem? given))

namespace Builder

theorem object_of_met (value : Value) (met : Demand.builder.Met value) :
    ∃ reference, value = .object reference := by
  obtain ⟨reference, same, -⟩ := met
  exact ⟨reference, same⟩

theorem ensures_ofText {text : String} (spelled : alphabet.Spells text.toList)
    {expected : String → Prop} :
    (world alphabet).Ensures (ofText text) heap (fun after result => result.Sound alphabet after)
      expected :=
  ensures_allocate className (.builder text) rfl spelled

theorem safe_makeEmpty : Safe [] makeEmpty :=
  fun _ _ _ _ => ensures_ofText Alphabet.spells_nil

theorem safe_make : Safe [.text] make :=
  fun _ _ _ sound => (finds_stringArgument rfl).then fun _ given =>
    ensures_ofText (spells_of_given sound given)

/-- The text of a string builder is found, since the object is in a state of its class. -/
theorem finds_textOf {reference : ObjectRef} (promised : demands[index]? = some .builder)
    (given : args[index]? = some (.object reference)) (typed : reference.Typed heap) :
    Finds (textOf reference) heap (fun text => heap.builder? reference = some text)
      (Blamed demands args) := by
  refine finds_get ?_
  split
  · rename_i text found
    exact finds_pure found
  · rename_i absent
    refine finds_throw (.of_unmet promised given ?_)
    rintro ⟨other, same, isBuilder⟩
    cases same
    obtain ⟨text, found⟩ := typed.builder? isBuilder
    rw [absent] at found
    cases found

theorem ensures_change {edit : String → String} (promised : demands[0]? = some .builder)
    (sound : ∀ arg ∈ args, arg.Sound alphabet heap)
    (spells : ∀ text, alphabet.Spells text.toList → alphabet.Spells (edit text).toList) :
    (world alphabet).Ensures (change edit args) heap
      (fun after result => result.Sound alphabet after) (Blamed demands args) := by
  refine World.ensures_of_sound fun heapSound => ?_
  refine (finds_objectArgument promised object_of_met).then fun reference given => ?_
  have typed := typed_of_given sound given
  refine (finds_textOf promised given typed).then fun text found => ?_
  exact ensures_replace (.builder (edit text)) (Heap.state?_of_builder? found)
    (fun _ suits => suits) (spells text (heapSound.of_builder? found)) (.object typed)

theorem safe_append : Safe [.builder, .something] append := by
  refine fun _ _ _ sound => World.ensures_of_sound fun heapSound => ?_
  refine (finds_argument rfl).then fun value given => ?_
  refine (finds_printed heapSound (sound value (List.mem_of_getElem? given))).then
    fun suffix spelled => ensures_change rfl sound fun text spelledText => ?_
  rw [String.toList_append]
  exact Alphabet.spells_append_iff.2 ⟨spelledText, spelled⟩

theorem safe_length : Safe [.builder] length :=
  safe_of_finds fun _ sound => (finds_objectArgument rfl object_of_met).bind fun _ given =>
    (finds_textOf rfl given (typed_of_given sound given)).bind fun _ _ => finds_lengthValue _ _

theorem safe_reverse : Safe [.builder] reverse :=
  fun _ _ _ sound => ensures_change rfl sound fun _ spelled => by
    simpa using spelled.of_subset fun _ member => List.mem_reverse.1 member

end Builder

namespace Lists

theorem object_of_met (value : Value) (met : Demand.list.Met value) :
    ∃ reference, value = .object reference := by
  obtain ⟨reference, same, -⟩ := met
  exact ⟨reference, same⟩

/-- The items of a list are found, since the object is in a state of its class. -/
theorem blamed_of_not_list {reference : ObjectRef} {message : String}
    (promised : demands[index]? = some .list) (given : args[index]? = some (.object reference))
    (typed : reference.Typed heap) (absent : heap.list? reference = none) :
    Blamed demands args message := by
  refine .of_unmet promised given ?_
  rintro ⟨other, same, isList⟩
  cases same
  obtain ⟨items, found⟩ := typed.list? isList
  rw [absent] at found
  cases found

/-- A step on the items of a list that gives a sound result and leaves sound items. -/
theorem ensures_onItems {step : List Value → HostM (Value × List Value)}
    (promised : demands[0]? = some .list) (sound : ∀ arg ∈ args, arg.Sound alphabet heap)
    (steps : ∀ items, (∀ item ∈ items, Value.Sound alphabet heap item) →
      Finds (step items) heap (fun (result, rest) =>
        result.Sound alphabet heap ∧ ∀ item ∈ rest, item.Sound alphabet heap)
        (Blamed demands args)) :
    (world alphabet).Ensures (onItems args step) heap
      (fun after result => result.Sound alphabet after) (Blamed demands args) := by
  refine World.ensures_of_sound fun heapSound => ?_
  refine (finds_objectArgument promised object_of_met).then fun reference given => ?_
  refine World.ensures_get ?_
  split
  · rename_i items found
    refine (steps items (heapSound.of_list? found)).then fun (result, rest) holds => ?_
    exact ensures_replace (.list rest) (Heap.state?_of_list? found) (fun _ suits => suits) holds.2
      holds.1
  · rename_i absent
    exact World.ensures_throw
      (blamed_of_not_list promised given (typed_of_given sound given) absent)

theorem sound_of_given (sound : ∀ arg ∈ args, arg.Sound alphabet heap) {item : Value}
    (given : args[index]? = some item) : item.Sound alphabet heap :=
  sound item (List.mem_of_getElem? given)

theorem safe_add : Safe [.list, .something] add :=
  fun _ _ _ sound => (finds_argument rfl).then fun item given =>
    ensures_onItems rfl sound fun items each => finds_pure
      ⟨.bool true, List.forall_mem_append.2 ⟨each, by simpa using sound_of_given sound given⟩⟩

theorem safe_size : Safe [.list] size :=
  fun alphabet _ _ sound => ensures_onItems rfl sound fun items each =>
    (finds_lengthValue alphabet items.length).bind fun _ counted => finds_pure ⟨counted, each⟩

theorem safe_isEmpty : Safe [.list] isEmpty :=
  fun _ _ _ sound => ensures_onItems rfl sound fun _ each => finds_pure ⟨.bool _, each⟩

theorem safe_contains : Safe [.list, .something] contains :=
  fun _ _ _ sound => (finds_argument rfl).then fun _ _ =>
    ensures_onItems rfl sound fun _ each => finds_pure ⟨.bool _, each⟩

theorem safe_clear : Safe [.list] clear :=
  fun _ _ _ sound => ensures_onItems rfl sound fun _ _ =>
    finds_pure ⟨.null, List.forall_mem_nil _⟩

theorem safe_insert : Safe [.list, .whole .int, .something] insert := by
  refine fun _ _ _ sound => (finds_intArgument rfl).then fun place _ => ?_
  refine (finds_argument rfl).then fun item given => ensures_onItems rfl sound fun items each => ?_
  refine (finds_indexBelow place _).bind fun place _ => finds_pure ⟨.null, ?_⟩
  refine List.forall_mem_append.2 ⟨fun other member => each other (List.mem_of_mem_take member), ?_⟩
  exact List.forall_mem_cons.2
    ⟨sound_of_given sound given, fun other member => each other (List.mem_of_mem_drop member)⟩

/-- The item at an index within a sound list is sound. -/
theorem sound_getD {items : List Value} (each : ∀ item ∈ items, item.Sound alphabet heap)
    (place : Nat) : (items.getD place .null).Sound alphabet heap := by
  rw [List.getD_eq_getElem?_getD]
  cases found : items[place]? with
  | none => exact .null
  | some item => exact each item (List.mem_of_getElem? found)

theorem safe_get : Safe [.list, .whole .int] get :=
  fun _ _ _ sound => (finds_intArgument rfl).then fun place _ =>
    ensures_onItems rfl sound fun _ each => (finds_indexBelow place _).bind fun place _ =>
      finds_pure ⟨sound_getD each place, each⟩

theorem safe_set : Safe [.list, .whole .int, .something] set := by
  refine fun _ _ _ sound => (finds_intArgument rfl).then fun place _ => ?_
  refine (finds_argument rfl).then fun item given => ensures_onItems rfl sound fun items each => ?_
  refine (finds_indexBelow place _).bind fun place _ => finds_pure ⟨sound_getD each place, ?_⟩
  intro other member
  rcases List.mem_or_eq_of_mem_set member with old | rfl
  · exact each other old
  · exact sound_of_given sound given

theorem safe_remove : Safe [.list, .whole .int] remove :=
  fun _ _ _ sound => (finds_intArgument rfl).then fun place _ =>
    ensures_onItems rfl sound fun _ each => (finds_indexBelow place _).bind fun place _ =>
      finds_pure ⟨sound_getD each place,
        fun item member => each item (List.mem_of_mem_eraseIdx member)⟩

theorem safe_addFirst : Safe [.list, .something] addFirst :=
  fun _ _ _ sound => (finds_argument rfl).then fun _ given =>
    ensures_onItems rfl sound fun _ each => finds_pure
      ⟨.null, List.forall_mem_cons.2 ⟨sound_of_given sound given, each⟩⟩

theorem ensures_ofItems {className : String} {items : List Value}
    (isList : className = arrayListName ∨ className = linkedListName)
    (each : ∀ item ∈ items, item.Sound alphabet heap) {expected : String → Prop} :
    (world alphabet).Ensures (ofItems className items) heap
      (fun after result => result.Sound alphabet after) expected :=
  ensures_allocate className (.list items) isList each

theorem safe_makeEmpty {className : String}
    (isList : className = arrayListName ∨ className = linkedListName) :
    Safe [] (makeEmpty className) :=
  fun _ _ _ _ => ensures_ofItems isList (List.forall_mem_nil _)

theorem safe_makeSized : Safe [.whole .int] makeSized :=
  fun _ _ _ _ => (finds_intArgument rfl).then fun _ _ =>
    World.ensures_unless (fun negative => .of_fault (.capacity negative)) fun _ =>
      ensures_ofItems (.inl rfl) (List.forall_mem_nil _)

theorem safe_copy : Safe [.list] copy := by
  refine fun _ _ _ sound => World.ensures_of_sound fun heapSound => ?_
  refine (finds_objectArgument rfl object_of_met).then fun source given => World.ensures_get ?_
  split
  · rename_i items found
    exact ensures_ofItems (.inl rfl) (heapSound.of_list? found)
  · rename_i absent
    exact World.ensures_throw (blamed_of_not_list rfl given (typed_of_given sound given) absent)

end Lists

namespace Annotations

theorem ensures_ofCheck {check : OutputCheck} (spelled : alphabet.Spells check.describe.toList)
    {expected : String → Prop} :
    (world alphabet).Ensures (ofCheck check) heap (fun after result => result.Sound alphabet after)
      expected := by
  have keeps : Heap.Keeps heap { heap with analyzerCount := heap.analyzerCount + 1 } :=
    Heap.keeps_of_states_eq rfl
  exact fun sound => ⟨⟨fun state member => (sound state member).later keeps, keeps⟩,
    .marker spelled⟩

theorem safe_makeInformation : Safe [.text] makeInformation :=
  safe_of_finds fun _ sound => (finds_stringArgument rfl).bind fun _ given =>
    finds_pure (.marker (spells_of_given sound given))

theorem safe_makeContains : Safe [.text] makeContains := by
  intro alphabet heap args sound
  refine Finds.then (finds_stringArgument rfl) fun needle given => ensures_ofCheck ?_
  have front : alphabet.Spells "output contains \"".toList :=
    Alphabet.spells_of_isPrintable (by decide)
  have back : alphabet.Spells "\"".toList := Alphabet.spells_of_isPrintable (by decide)
  have described : (OutputCheck.contains needle).describe =
      "output contains \"" ++ needle ++ "\"" := rfl
  simp only [described, String.toList_append]
  exact Alphabet.spells_append_iff.2
    ⟨Alphabet.spells_append_iff.2 ⟨front, spells_of_given sound given⟩, back⟩

theorem spells_lineCount (alphabet : Alphabet) (count : Nat) :
    alphabet.Spells (OutputCheck.lineCount count).describe.toList := by
  have front : "output has ".toList.all Text.isPrintable := by decide
  have back : " lines".toList.all Text.isPrintable := by decide
  have described : (OutputCheck.lineCount count).describe =
      "output has " ++ toString count ++ " lines" := rfl
  refine Alphabet.spells_of_isPrintable ?_
  simp only [described, String.toList_append, List.all_append, front,
    isPrintable_toString_nat, back, Bool.and_self]

theorem safe_makeLineCount : Safe [.whole .int] makeLineCount := by
  intro alphabet heap args _
  refine Finds.then (finds_intArgument rfl) fun expected _ => ?_
  refine World.ensures_unless (fun negative => .of_fault (.lineCount negative)) fun _ => ?_
  exact ensures_ofCheck (spells_lineCount alphabet expected.toNat)

end Annotations

end Colloquy.Host
