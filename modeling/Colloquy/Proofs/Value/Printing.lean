import Colloquy.Value.Display

/-!
# Printing

Values occur in each other, through arrays and through lists on the heap, and a list may occur in
itself.  Printing goes down from an occurrence to the items of its value, but not into an object
that encloses the occurrence, so that it ends in every heap.  Such an occurrence is printed as a
placeholder, and every other one in full.
-/

namespace Colloquy

/-- The items of a value that is an array or a list. -/
def Value.items? (heap : Heap) : Value → Option (List Value)
  | array items => some items
  | object reference => heap.list? reference
  | _ => none

/-- An occurrence of a value in other values. -/
structure Site where
  /-- The objects that enclose the occurrence, the innermost one first. -/
  enclosing : List Nat
  /-- The value that occurs. -/
  value : Value

namespace Site

/-- The value is an object that encloses this occurrence of it. -/
def recurs (site : Site) : Bool :=
  match site.value with
  | .object reference => reference.id ∈ site.enclosing
  | _ => false

/-- The objects that enclose what occurs in the value. -/
def inside (site : Site) : List Nat :=
  match site.value with
  | .object reference => reference.id :: site.enclosing
  | _ => site.enclosing

/-- The occurrences of the items of the value, unless the value recurs. -/
def items? (heap : Heap) (site : Site) : Option (List Site) :=
  if site.recurs then none
  else (site.value.items? heap).map fun items => items.map (⟨site.inside, ·⟩)

/-- The occurrence that is reached by going from item to item. -/
def at? (heap : Heap) (site : Site) : List Nat → Option Site
  | [] => some site
  | index :: address =>
    match (site.items? heap).bind (·[index]?) with
    | some item => item.at? heap address
    | none => none

/-- The text of an occurrence. -/
def text (heap : Heap) (site : Site) : String := site.value.textOn heap site.enclosing

variable {heap : Heap} {site : Site}

theorem recurs_iff : site.recurs ↔
    ∃ reference, site.value = .object reference ∧ reference.id ∈ site.enclosing := by
  unfold recurs
  split
  · rename_i reference same
    simp [same]
  · rename_i other
    simp only [Bool.false_eq_true, false_iff]
    rintro ⟨reference, same, -⟩
    exact other reference same

theorem mem_inside_iff {id : Nat} : id ∈ site.inside ↔
    id ∈ site.enclosing ∨ ∃ reference, site.value = .object reference ∧ reference.id = id := by
  unfold inside
  split
  · rename_i reference same
    simp [same, or_comm, eq_comm]
  · rename_i other
    constructor
    · exact .inl
    · rintro (outside | ⟨reference, same, -⟩)
      · exact outside
      · exact absurd same (other reference)

theorem items?_eq_some_iff {items : List Site} : site.items? heap = some items ↔
    ¬ site.recurs ∧ ∃ values, site.value.items? heap = some values ∧
      values.map (⟨site.inside, ·⟩) = items := by
  unfold items?
  split
  · simp_all
  · simp_all [Option.map_eq_some_iff]

/-- An object is met on the way to what an address leads to. -/
def Meets (heap : Heap) (site : Site) (address : List Nat) (id : Nat) : Prop :=
  ∃ before index after outer reference, address = before ++ index :: after ∧
    site.at? heap before = some outer ∧ outer.value = .object reference ∧ reference.id = id

theorem at?_cons {index : Nat} {address : List Nat} {inner : Site} :
    site.at? heap (index :: address) = some inner ↔
      ∃ items item, site.items? heap = some items ∧ items[index]? = some item ∧
        item.at? heap address = some inner := by
  rw [at?]
  cases site.items? heap with
  | none => simp
  | some items => cases here : items[index]? <;> simp [here]

theorem meets_cons_iff {index : Nat} {address : List Nat} {items : List Site} {item : Site}
    (looked : site.items? heap = some items) (here : items[index]? = some item) {id : Nat} :
    site.Meets heap (index :: address) id ↔
      (∃ reference, site.value = .object reference ∧ reference.id = id) ∨
        item.Meets heap address id := by
  constructor
  · rintro ⟨before, next, after, outer, reference, parts, reached, same, rfl⟩
    cases before with
    | nil =>
      cases reached
      exact .inl ⟨reference, same, rfl⟩
    | cons first before =>
      cases parts
      obtain ⟨others, other, otherLooked, otherHere, reached⟩ := at?_cons.1 reached
      cases looked.symm.trans otherLooked
      cases here.symm.trans otherHere
      exact .inr ⟨before, next, after, outer, reference, rfl, reached, same, rfl⟩
  · rintro (⟨reference, same, rfl⟩ |
      ⟨before, next, after, outer, reference, rfl, reached, same, rfl⟩)
    · exact ⟨[], index, address, site, reference, rfl, rfl, same, rfl⟩
    · exact ⟨index :: before, next, after, outer, reference, rfl,
        at?_cons.2 ⟨items, item, looked, here, reached⟩, same, rfl⟩

/-- An occurrence is enclosed by what is met on the way to it. -/
theorem mem_enclosing_at?_iff {address : List Nat} {inner : Site}
    (reached : site.at? heap address = some inner) {id : Nat} :
    id ∈ inner.enclosing ↔ id ∈ site.enclosing ∨ site.Meets heap address id := by
  induction address generalizing site with
  | nil =>
    cases reached
    simp [Meets]
  | cons index address ih =>
    obtain ⟨items, item, looked, here, reached⟩ := at?_cons.1 reached
    have item_enclosing : item.enclosing = site.inside := by
      obtain ⟨-, values, -, rfl⟩ := items?_eq_some_iff.1 looked
      obtain ⟨value, -, rfl⟩ := List.mem_map.1 (List.mem_of_getElem? here)
      rfl
    rw [ih reached, meets_cons_iff looked here, item_enclosing, mem_inside_iff, or_assoc]

/-- An occurrence is that of an item of another one. -/
def Within (heap : Heap) (inner outer : Site) : Prop :=
  ∃ items, outer.items? heap = some items ∧ inner ∈ items

/-- Down from an occurrence there are fewer objects left that do not enclose it, or else the value
is smaller. -/
theorem lex_of_within {inner outer : Site} (within : Within heap inner outer) :
    Prod.Lex (· < ·) (· < ·) (Value.offPath heap inner.enclosing, sizeOf inner.value)
      (Value.offPath heap outer.enclosing, sizeOf outer.value) := by
  obtain ⟨items, looked, member⟩ := within
  obtain ⟨once, values, held, rfl⟩ := items?_eq_some_iff.1 looked
  obtain ⟨value, listed, rfl⟩ := List.mem_map.1 member
  obtain ⟨enclosing, outside⟩ := outer
  cases outside with
  | array items =>
    cases held
    have smaller := List.sizeOf_lt_of_mem listed
    exact Prod.Lex.right _ (by simp only [Value.array.sizeOf_spec]; omega)
  | object reference =>
    have fresh : reference.id ∉ enclosing := fun enclosed =>
      once (recurs_iff.2 ⟨reference, rfl, enclosed⟩)
    exact Prod.Lex.left _ _ (Value.offPath_cons_lt (Heap.state?_of_list? held) fresh)
  | _ => cases held

/-- No descent goes on forever. -/
theorem wellFounded_within (heap : Heap) : WellFounded (Within heap) :=
  Subrelation.wf lex_of_within (InvImage.wf
    (fun site : Site => (Value.offPath heap site.enclosing, sizeOf site.value))
    (Prod.lex Nat.lt_wfRel Nat.lt_wfRel).wf)

theorem itemTextsOn_eq_map (heap : Heap) (path : List Nat) (items : List Value) :
    Value.itemTextsOn heap path items = items.map fun item => item.textOn heap path := by
  induction items with
  | nil => rw [Value.itemTextsOn, List.map_nil]
  | cons item items ih => rw [Value.itemTextsOn, ih, List.map_cons]

theorem text_of_recurs (recurs : site.recurs) : site.text heap = "(this Collection)" := by
  obtain ⟨reference, same, enclosed⟩ := recurs_iff.1 recurs
  rw [text, same, Value.textOn, dif_pos enclosed]

theorem text_of_items {items : List Site} (looked : site.items? heap = some items) :
    site.text heap = bracketed (items.map (·.text heap)) := by
  obtain ⟨once, values, held, rfl⟩ := items?_eq_some_iff.1 looked
  obtain ⟨enclosing, value⟩ := site
  rw [List.map_map]
  cases value with
  | array items =>
    cases held
    rw [text, Value.textOn, itemTextsOn_eq_map]
    rfl
  | object reference =>
    have fresh : reference.id ∉ enclosing := fun enclosed =>
      once (recurs_iff.2 ⟨reference, rfl, enclosed⟩)
    have found := Heap.state?_of_list? held
    rw [text, Value.textOn, dif_neg fresh, found]
    dsimp only
    rw [itemTextsOn_eq_map]
    rfl
  | _ => cases held

/-- A value without items is printed alike wherever it occurs. -/
theorem text_of_plain (once : ¬ site.recurs) (plain : site.value.items? heap = none) :
    site.text heap = site.value.text heap := by
  obtain ⟨enclosing, value⟩ := site
  rw [text, Value.text]
  cases value with
  | array items => cases plain
  | object reference =>
    have fresh : reference.id ∉ enclosing := fun enclosed =>
      once (recurs_iff.2 ⟨reference, rfl, enclosed⟩)
    rw [Value.textOn, Value.textOn, dif_neg fresh, dif_neg List.not_mem_nil]
    split
    · rename_i items found
      change heap.list? reference = none at plain
      rw [Heap.list?, found] at plain
      cases plain
    all_goals rfl
  | _ => rw [Value.textOn, Value.textOn]

end Site

/-- What is printed for a value, item by item. -/
inductive Printout where
  | plain (text : String)
  | sequence (parts : List Printout)
  | placeholder

namespace Printout

mutual

/-- The text of a printout. -/
def text : Printout → String
  | plain text => text
  | sequence parts => bracketed (texts parts)
  | placeholder => "(this Collection)"

/-- The texts of printouts. -/
def texts : List Printout → List String
  | [] => []
  | part :: parts => part.text :: texts parts

end

/-- The parts of a printed array or list. -/
def parts? : Printout → Option (List Printout)
  | sequence parts => some parts
  | _ => none

/-- The part that is reached by going from part to part. -/
def at? (printout : Printout) : List Nat → Option Printout
  | [] => some printout
  | index :: address =>
    match printout.parts?.bind (·[index]?) with
    | some part => part.at? address
    | none => none

theorem texts_eq_map (parts : List Printout) : texts parts = parts.map text := by
  induction parts with
  | nil => rw [texts, List.map_nil]
  | cons part parts ih => rw [texts, ih, List.map_cons]

end Printout

/-- What is printed for an occurrence. -/
structure Shows (heap : Heap) (site : Site) (part : Printout) : Prop where
  /-- It is a placeholder just in case that the value is an object that encloses the occurrence. -/
  placeholder : part = .placeholder ↔ site.recurs
  /-- An array or a list that does not enclose the occurrence is printed with all of its items. -/
  items : ∀ values, ¬ site.recurs → site.value.items? heap = some values →
    ∃ parts, part = .sequence parts ∧ parts.length = values.length
  /-- Any other value is printed as it is printed everywhere. -/
  plain : ¬ site.recurs → site.value.items? heap = none → part = .plain (site.value.text heap)

/-- A printout shows an occurrence and whatever is in it, part by part. -/
structure Prints (heap : Heap) (site : Site) (printout : Printout) : Prop where
  /-- The text is the one of the occurrence. -/
  text : printout.text = site.text heap
  /-- Each part shows the occurrence in its place, and there are no others. -/
  shows : ∀ address, Option.Rel (Shows heap) (site.at? heap address) (printout.at? address)

variable {heap : Heap} {site : Site}

/-- Of an occurrence without items, only itself is to be shown. -/
theorem prints_leaf {printout : Printout} (whole : site.items? heap = none)
    (leaf : printout.parts? = none) (text : printout.text = site.text heap)
    (showing : Shows heap site printout) : Prints heap site printout where
  text := text
  shows address := by
    cases address with
    | nil => exact .some showing
    | cons index address =>
      rw [Site.at?, Printout.at?, whole, leaf]
      exact .none

theorem prints_placeholder (recurs : site.recurs) : Prints heap site .placeholder := by
  have whole : site.items? heap = none := by rw [Site.items?, if_pos recurs]
  refine prints_leaf whole rfl (Site.text_of_recurs recurs).symm ⟨iff_of_true rfl recurs, ?_, ?_⟩
  · intro values once
    exact absurd recurs once
  · intro once
    exact absurd recurs once

theorem prints_plain (once : ¬ site.recurs) (plain : site.value.items? heap = none) :
    Prints heap site (.plain (site.value.text heap)) := by
  have whole : site.items? heap = none := by
    rw [Site.items?, if_neg once, plain, Option.map_none]
  refine prints_leaf whole rfl (Site.text_of_plain once plain).symm ⟨?_, ?_, fun _ _ => rfl⟩
  · simp [once]
  · intro values _ some
    cases plain.symm.trans some

/-- An occurrence with items is printed by printing these. -/
theorem prints_sequence {items : List Site} {print : Site → Printout}
    (looked : site.items? heap = some items)
    (each : ∀ item ∈ items, Prints heap item (print item)) :
    Prints heap site (.sequence (items.map print)) where
  text := by
    rw [Printout.text, Printout.texts_eq_map, List.map_map, Site.text_of_items looked]
    exact congrArg bracketed (List.map_congr_left fun item member => (each item member).text)
  shows address := by
    cases address with
    | nil =>
      obtain ⟨once, values, held, rfl⟩ := Site.items?_eq_some_iff.1 looked
      refine .some ⟨?_, ?_, ?_⟩
      · simp [once]
      · intro others _ otherHeld
        cases held.symm.trans otherHeld
        exact ⟨_, rfl, by simp⟩
      · intro _ none
        cases held.symm.trans none
    | cons index address =>
      have parts : (Printout.sequence (items.map print)).parts?.bind (·[index]?) =
          items[index]?.map print := List.getElem?_map
      rw [Site.at?, Printout.at?, looked, parts]
      dsimp only [Option.bind_some]
      cases here : items[index]? with
      | none => exact .none
      | some item => exact (each item (List.mem_of_getElem? here)).shows address

/-- Every occurrence is printed, since no descent from it goes on forever. -/
theorem exists_prints (heap : Heap) (site : Site) : ∃ printout, Prints heap site printout := by
  induction site using (Site.wellFounded_within heap).induction with
  | h site ih =>
    by_cases recurs : site.recurs
    · exact ⟨.placeholder, prints_placeholder recurs⟩
    · cases held : site.value.items? heap with
      | none => exact ⟨.plain (site.value.text heap), prints_plain recurs held⟩
      | some values =>
        have looked := Site.items?_eq_some_iff.2 ⟨recurs, values, held, rfl⟩
        have item (inner : Site) : ∃ printout,
            inner ∈ values.map (Site.mk site.inside) → Prints heap inner printout := by
          by_cases member : inner ∈ values.map (Site.mk site.inside)
          · obtain ⟨printout, prints⟩ := ih inner ⟨_, looked, member⟩
            exact ⟨printout, fun _ => prints⟩
          · exact ⟨.placeholder, fun inside => absurd inside member⟩
        obtain ⟨print, each⟩ := Classical.skolem.1 item
        exact ⟨_, prints_sequence looked each⟩

/-- Printing a value ends in every heap: no descent from occurrence to occurrence goes on forever,
and the text is put together from parts that stand each in the place of one occurrence.  The
placeholders stand in the places of those objects that are met on the way there, and all other
occurrences are printed in full. -/
theorem text_shows_occurrences (heap : Heap) (value : Value) :
    let whole : Site := ⟨[], value⟩
    WellFounded (Site.Within heap) ∧
      (∀ address site, whole.at? heap address = some site →
        (site.recurs ↔ ∃ reference, site.value = .object reference ∧
          whole.Meets heap address reference.id)) ∧
      ∃ printout : Printout, printout.text = value.text heap ∧
        ∀ address, Option.Rel (Shows heap) (whole.at? heap address) (printout.at? address) := by
  intro whole
  refine ⟨Site.wellFounded_within heap, ?_, ?_⟩
  · intro address site reached
    simp only [Site.recurs_iff, Site.mem_enclosing_at?_iff reached]
    simp [whole]
  · obtain ⟨printout, prints⟩ := exists_prints heap whole
    exact ⟨printout, prints.text, prints.shows⟩

/-- A list with itself as its second item. -/
example : (Value.object ⟨0, "java.util.ArrayList"⟩).text
    { states := [.list [.str "duck", .object ⟨0, "java.util.ArrayList"⟩]] } =
      "[duck, (this Collection)]" := by
  cbv

end Colloquy
