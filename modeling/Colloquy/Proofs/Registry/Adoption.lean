import Colloquy.Registry.Handle

/-!
# Lists of handles without repeated parameters

A handle is adopted into a list unless an earlier one takes the same external parameters.  What is
adopted one after another keeps its order, and of the handles with the same parameters the first.
-/

namespace Colloquy.Handle

/-- Some handle takes the external parameters of another one. -/
def Covered (handles : List Handle) (handle : Handle) : Prop :=
  ∃ other ∈ handles, other.external.sameParams handle.external

/-- The list with one more handle at its end, unless its external parameters are taken. -/
def adopt (handles : List Handle) (handle : Handle) : List Handle :=
  if handles.any fun other => other.external.sameParams handle.external then handles
  else handles ++ [handle]

/-- The list with further handles, one after another. -/
def adoptAll (handles others : List Handle) : List Handle := others.foldl adopt handles

theorem sameParams_self (signature : Signature) : signature.sameParams signature := by
  simp [Signature.sameParams]

theorem sameParams_iff {left right : Signature} :
    left.sameParams right ↔ left.params = right.params ∧ left.variadic = right.variadic := by
  simp [Signature.sameParams]

theorem adopt_of_covered {handles : List Handle} {handle : Handle}
    (covered : Covered handles handle) : adopt handles handle = handles := by
  rw [adopt, if_pos (List.any_eq_true.2 covered)]

theorem adopt_of_not_covered {handles : List Handle} {handle : Handle}
    (fresh : ¬ Covered handles handle) : adopt handles handle = handles ++ [handle] := by
  rw [adopt, if_neg fun taken => fresh (List.any_eq_true.1 taken)]

theorem prefix_adopt (handles : List Handle) (handle : Handle) :
    handles <+: adopt handles handle := by
  rw [adopt]
  split
  · exact List.prefix_rfl
  · exact List.prefix_append _ _

theorem covered_adopt (handles : List Handle) (handle : Handle) :
    Covered (adopt handles handle) handle := by
  by_cases covered : Covered handles handle
  · rwa [adopt_of_covered covered]
  · rw [adopt_of_not_covered covered]
    exact ⟨handle, by simp, sameParams_self _⟩

theorem mem_of_mem_adopt {handles : List Handle} {handle other : Handle}
    (member : other ∈ adopt handles handle) : other ∈ handles ∨ other = handle := by
  by_cases covered : Covered handles handle
  · rw [adopt_of_covered covered] at member
    exact .inl member
  · rw [adopt_of_not_covered covered] at member
    simpa using member

theorem Covered.mono {handles others : List Handle} {handle : Handle}
    (covered : Covered handles handle) (more : handles ⊆ others) : Covered others handle := by
  obtain ⟨other, member, same⟩ := covered
  exact ⟨other, more member, same⟩

theorem prefix_adoptAll (handles others : List Handle) : handles <+: adoptAll handles others := by
  induction others generalizing handles with
  | nil => exact List.prefix_rfl
  | cons other others ih => exact (prefix_adopt handles other).trans (ih _)

theorem mem_of_mem_adoptAll {handles others : List Handle} {handle : Handle}
    (member : handle ∈ adoptAll handles others) : handle ∈ handles ∨ handle ∈ others := by
  induction others generalizing handles with
  | nil => exact .inl member
  | cons other others ih =>
    rcases ih member with earlier | later
    · rcases mem_of_mem_adopt earlier with before | rfl
      · exact .inl before
      · exact .inr (List.mem_cons_self ..)
    · exact .inr (List.mem_cons_of_mem _ later)

theorem covered_adoptAll {handles others : List Handle} {handle : Handle}
    (member : handle ∈ others) : Covered (adoptAll handles others) handle := by
  induction others generalizing handles with
  | nil => cases member
  | cons other others ih =>
    rcases List.mem_cons.1 member with rfl | later
    · exact (covered_adopt handles handle).mono (prefix_adoptAll _ others).subset
    · exact ih later

theorem adoptAll_eq_adopt {handles others : List Handle} {handle : Handle}
    (all : ∀ other ∈ others, other = handle) (nonempty : others ≠ []) :
    adoptAll handles others = adopt handles handle := by
  induction others generalizing handles with
  | nil => exact absurd rfl nonempty
  | cons other others ih =>
    obtain rfl := all other (List.mem_cons_self ..)
    have remaining : ∀ later ∈ others, later = other :=
      fun later member => all later (List.mem_cons_of_mem _ member)
    cases others with
    | nil => rfl
    | cons next others =>
      have repeated := @ih (adopt handles other) remaining (by simp)
      rw [adopt_of_covered (covered_adopt handles other)] at repeated
      exact repeated

/-- No two handles take the same external parameters. -/
def Distinct (handles : List Handle) : Prop :=
  handles.Pairwise fun earlier later => ¬ earlier.external.sameParams later.external

theorem Distinct.adopt {handles : List Handle} (distinct : Distinct handles) (handle : Handle) :
    Distinct (adopt handles handle) := by
  by_cases covered : Covered handles handle
  · rw [adopt_of_covered covered]
    exact distinct
  · rw [adopt_of_not_covered covered]
    refine List.pairwise_append.2 ⟨distinct, List.pairwise_singleton _ _, ?_⟩
    intro earlier member later last same
    rw [List.mem_singleton.1 last] at same
    exact covered ⟨earlier, member, same⟩

theorem Distinct.adoptAll {handles : List Handle} (distinct : Distinct handles)
    (others : List Handle) : Distinct (adoptAll handles others) := by
  induction others generalizing handles with
  | nil => exact distinct
  | cons other others ih => exact ih (distinct.adopt other)

theorem distinct_nil : Distinct [] := List.Pairwise.nil

theorem adoptAll_append (handles others later : List Handle) :
    adoptAll handles (others ++ later) = adoptAll (adoptAll handles others) later :=
  List.foldl_append ..

theorem Distinct.adoptAll_eq_append {handles others : List Handle}
    (distinct : Distinct (handles ++ others)) :
    Handle.adoptAll handles others = handles ++ others := by
  induction others generalizing handles with
  | nil => exact (List.append_nil _).symm
  | cons other others ih =>
    have fresh : ¬ Covered handles other := by
      rintro ⟨earlier, member, same⟩
      exact (List.pairwise_append.1 distinct).2.2 earlier member other (List.mem_cons_self ..) same
    have split : handles ++ other :: others = handles ++ [other] ++ others := by simp
    rw [split] at distinct ⊢
    rw [← ih distinct]
    change Handle.adoptAll (Handle.adopt handles other) others = _
    rw [adopt_of_not_covered fresh]

theorem filter_adopt_of_not {select : Handle → Bool} {handle : Handle} (dropped : ¬ select handle)
    (handles : List Handle) : (adopt handles handle).filter select = handles.filter select := by
  by_cases covered : Covered handles handle
  · rw [adopt_of_covered covered]
  · rw [adopt_of_not_covered covered]
    simp [dropped]

theorem filter_adopt {select : Handle → Bool} {handles : List Handle} {handle : Handle}
    (kept : select handle) (agree : ∀ other ∈ handles,
      other.external.sameParams handle.external → select other = select handle) :
    (adopt handles handle).filter select = adopt (handles.filter select) handle := by
  by_cases covered : Covered handles handle
  · obtain ⟨other, member, same⟩ := covered
    have otherKept : select other := by
      rw [agree other member same]
      exact kept
    have still : Covered (handles.filter select) handle :=
      ⟨other, List.mem_filter.2 ⟨member, otherKept⟩, same⟩
    rw [adopt_of_covered ⟨other, member, same⟩, adopt_of_covered still]
  · have fresh : ¬ Covered (handles.filter select) handle :=
      fun still => covered (still.mono List.filter_sublist.subset)
    rw [adopt_of_not_covered covered, adopt_of_not_covered fresh]
    simp [kept]

/-- A selection that handles with the same parameters agree on may be made before or after. -/
theorem filter_adoptAll {select : Handle → Bool} {handles others : List Handle}
    (agree : ∀ handle ∈ handles ++ others, ∀ other ∈ handles ++ others,
      other.external.sameParams handle.external → select other = select handle) :
    (adoptAll handles others).filter select =
      adoptAll (handles.filter select) (others.filter select) := by
  induction others generalizing handles with
  | nil => rfl
  | cons next others ih =>
    have among {handle : Handle} (member : handle ∈ adopt handles next ++ others) :
        handle ∈ handles ++ next :: others := by
      rcases List.mem_append.1 member with first | last
      · rcases mem_of_mem_adopt first with before | rfl
        · exact List.mem_append_left _ before
        · exact List.mem_append_right _ (List.mem_cons_self ..)
      · exact List.mem_append_right _ (List.mem_cons_of_mem _ last)
    have rest := ih (fun handle member other listed =>
      agree handle (among member) other (among listed))
    change (adoptAll (adopt handles next) others).filter select = _
    rw [rest]
    by_cases kept : select next
    · have here : next ∈ handles ++ next :: others := by simp
      have first := filter_adopt kept fun other member =>
        agree next here other (List.mem_append_left _ member)
      rw [first, List.filter_cons_of_pos kept]
      rfl
    · rw [filter_adopt_of_not kept, List.filter_cons_of_neg kept]

theorem eq_of_initial {handles longer : List Handle} (initial : handles <+: longer)
    (distinct : Distinct longer) (covered : ∀ handle ∈ longer, Covered handles handle) :
    handles = longer := by
  obtain ⟨rest, rfl⟩ := initial
  cases rest with
  | nil => exact (List.append_nil _).symm
  | cons next rest =>
    obtain ⟨other, member, same⟩ := covered next (by simp)
    have different := (List.pairwise_append.1 distinct).2.2 other member next (by simp)
    exact absurd same different

theorem mem_of_adoptAll_eq {left right later : List Handle}
    (same : adoptAll left later = adoptAll right later) {handle : Handle}
    (member : handle ∈ left) : handle ∈ right ∨ handle ∈ later := by
  have whole := (prefix_adoptAll left later).subset member
  rw [same] at whole
  exact mem_of_mem_adoptAll whole

/-- Lists that cover each other stay different if they are different. -/
theorem eq_of_adoptAll_eq {left right later : List Handle} (leftDistinct : Distinct left)
    (rightDistinct : Distinct right) (leftCovered : ∀ handle ∈ left, Covered right handle)
    (rightCovered : ∀ handle ∈ right, Covered left handle)
    (same : adoptAll left later = adoptAll right later) : left = right := by
  have first : left <+: adoptAll left later := prefix_adoptAll left later
  have second : right <+: adoptAll left later := by
    rw [same]
    exact prefix_adoptAll right later
  rcases Nat.le_total left.length right.length with shorter | longer
  · have initial := List.prefix_of_prefix_length_le first second shorter
    exact eq_of_initial initial rightDistinct rightCovered
  · have initial := List.prefix_of_prefix_length_le second first longer
    exact (eq_of_initial initial leftDistinct leftCovered).symm

end Colloquy.Handle
