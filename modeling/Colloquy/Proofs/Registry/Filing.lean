import Mathlib.Data.List.Induction
import Mathlib.Data.List.Nodup
import Colloquy.Proofs.Registry.Adoption
import Colloquy.Registry.Basic

/-!
# Filing handles

What filing does to the bucket of each type, operation and arity: a handle goes to the end of a
bucket that it belongs to, unless an earlier handle there takes the same external parameters.
-/

namespace Colloquy.Registry

open Handle

/-- A handle belongs to the bucket of an operation and an arity. -/
def belongs (operation : Option String) (arity : Nat) (handle : Handle) : Bool :=
  handle.name = operation && handle.arity = arity

theorem belongs_iff {operation : Option String} {arity : Nat} {handle : Handle} :
    belongs operation arity handle ↔ handle.name = operation ∧ handle.arity = arity := by
  simp [belongs]

theorem bucket_eq (registry : Registry) (typeName : String) (operation : Option String)
    (arity : Nat) :
    registry.bucket typeName operation arity =
      ((registry.filings.filter (·.typeName = typeName)).map (·.handle)).filter
        (belongs operation arity) := by
  simp only [bucket, handles, List.filter_map, List.filter_filter, Function.comp_def, belongs]
  congr 1
  refine List.filter_congr fun filing _ => ?_
  cases decide (filing.typeName = typeName) <;> cases decide (filing.handle.name = operation) <;>
    cases decide (filing.handle.arity = arity) <;> rfl

theorem mem_bucket_iff {registry : Registry} {typeName : String} {operation : Option String}
    {arity : Nat} {handle : Handle} :
    handle ∈ registry.bucket typeName operation arity ↔
      ⟨typeName, handle⟩ ∈ registry.filings ∧ handle.name = operation ∧ handle.arity = arity := by
  simp only [bucket_eq, belongs, List.mem_filter, List.mem_map, decide_eq_true_eq,
    Bool.and_eq_true]
  constructor
  · rintro ⟨⟨filing, ⟨filed, rfl⟩, rfl⟩, place⟩
    exact ⟨filed, place⟩
  · rintro ⟨filed, place⟩
    exact ⟨⟨_, ⟨filed, rfl⟩, rfl⟩, place⟩

theorem mem_handles_iff {registry : Registry} {typeName : String} {operation : Option String}
    {handle : Handle} :
    handle ∈ registry.handles typeName operation ↔
      handle ∈ registry.bucket typeName operation handle.arity := by
  simp [bucket]

theorem isFiled_iff {registry : Registry} {typeName : String} {handle : Handle} :
    registry.isFiled typeName handle ↔
      Covered (registry.bucket typeName handle.name handle.arity) handle := by
  simp [isFiled, Covered]

theorem le_foldl_max (numbers : List Nat) (start : Nat) :
    start ≤ numbers.foldl max start ∧ ∀ number ∈ numbers, number ≤ numbers.foldl max start := by
  induction numbers generalizing start with
  | nil => exact ⟨Nat.le_refl _, fun number member => by cases member⟩
  | cons first numbers ih =>
    obtain ⟨base, rest⟩ := ih (max start first)
    refine ⟨Nat.le_trans (Nat.le_max_left _ _) base, fun number member => ?_⟩
    rcases List.mem_cons.1 member with rfl | later
    · exact Nat.le_trans (Nat.le_max_right _ _) base
    · exact rest number later

theorem arity_le_topArity {handles : List Handle} {handle : Handle} (member : handle ∈ handles) :
    handle.arity ≤ topArity handles :=
  (le_foldl_max _ 0).2 _ (List.mem_map_of_mem member)

/-- Where one item only contributes to a list, the list is its contribution. -/
theorem flatMap_eq_of_only {Item Part : Type} {items : List Item} (nodup : items.Nodup)
    {parts : Item → List Part} {item : Item}
    (others : ∀ other ∈ items, other ≠ item → parts other = [])
    (absent : item ∉ items → parts item = []) : items.flatMap parts = parts item := by
  induction items with
  | nil => exact (absent List.not_mem_nil).symm
  | cons first items ih =>
    obtain ⟨unlisted, nodup⟩ := List.nodup_cons.1 nodup
    rw [List.flatMap_cons]
    by_cases same : first = item
    · subst same
      have empty : items.flatMap parts = [] := by
        refine List.flatMap_eq_nil_iff.2 fun other member => ?_
        exact others other (List.mem_cons_of_mem _ member) (ne_of_mem_of_not_mem member unlisted)
      rw [empty, List.append_nil]
    · rw [others first List.mem_cons_self same, List.nil_append]
      refine ih nodup (fun other member => others other (List.mem_cons_of_mem _ member)) ?_
      intro missing
      refine absent fun listed => missing ?_
      exact (List.mem_cons.1 listed).resolve_left (Ne.symm same)

theorem byArity_filter (handles : List Handle) (arity : Nat) :
    (byArity handles).filter (·.arity = arity) = handles.filter (·.arity = arity) := by
  have parts (other : Nat) : (handles.filter (·.arity = other)).filter (·.arity = arity) =
      if other = arity then handles.filter (·.arity = arity) else [] := by
    rw [List.filter_filter]
    split
    · rename_i same
      simp [same]
    · rename_i different
      refine List.filter_eq_nil_iff.2 fun handle _ both => different ?_
      simp only [Bool.and_eq_true, decide_eq_true_eq] at both
      omega
  rw [byArity, List.filter_flatMap]
  simp only [parts]
  refine (@flatMap_eq_of_only _ _ _ List.nodup_range _ arity ?_ ?_).trans (if_pos rfl)
  · intro other _ different
    exact if_neg different
  · intro above
    rw [if_pos rfl]
    refine List.filter_eq_nil_iff.2 fun handle member taken => above ?_
    have top := arity_le_topArity member
    rw [List.mem_range]
    simp only [decide_eq_true_eq] at taken
    omega

theorem mem_keys_iff {registry : Registry} {key : FilingKey} :
    key ∈ registry.keys ↔ ∃ handle, handle ∈ registry.handles key.typeName key.operation := by
  simp only [keys, List.mem_eraseDups, List.mem_map, mem_handles_iff, mem_bucket_iff, and_true]
  constructor
  · rintro ⟨filing, filed, rfl⟩
    exact ⟨filing.handle, filed, rfl⟩
  · rintro ⟨handle, filed, named⟩
    exact ⟨_, filed, by rw [named]⟩

/-- No key is entered twice. -/
theorem nodup_keys (registry : Registry) : registry.keys.Nodup := by
  rw [keys]
  generalize registry.filings.map _ = entered
  induction entered using List.reverseRecOn with
  | nil => exact List.nodup_nil
  | append_singleton entered key ih =>
    rw [List.eraseDups_append]
    by_cases listed : key ∈ entered
    · simpa [List.removeAll, listed] using ih
    · have last : [key].removeAll entered = [key] := by simp [List.removeAll, listed]
      rw [last]
      refine List.nodup_append.2 ⟨ih, List.nodup_singleton key, fun other member next here => ?_⟩
      rintro rfl
      rw [List.mem_singleton.1 here, List.mem_eraseDups] at member
      exact listed member

/-- A filed handle goes to the end of its bucket, unless its parameters are taken there. -/
theorem bucket_file (registry : Registry) (typeName other : String) (handle : Handle)
    (operation : Option String) (arity : Nat) :
    (registry.file typeName handle).bucket other operation arity =
      if typeName = other ∧ belongs operation arity handle then
        adopt (registry.bucket other operation arity) handle
      else registry.bucket other operation arity := by
  by_cases filed : registry.isFiled typeName handle
  · have kept : registry.file typeName handle = registry := by simp [file, filed]
    rw [kept]
    split
    · rename_i place
      obtain ⟨rfl, place⟩ := place
      obtain ⟨rfl, rfl⟩ := belongs_iff.1 place
      rw [adopt_of_covered (isFiled_iff.1 filed)]
    · rfl
  · have added : (registry.file typeName handle).filings =
        registry.filings ++ [⟨typeName, handle⟩] := by simp [file, filed]
    rw [bucket_eq, added, List.filter_append, List.map_append, List.filter_append, ← bucket_eq]
    by_cases same : typeName = other
    · subst same
      cases place : belongs operation arity handle with
      | false => simp [place]
      | true =>
        obtain ⟨rfl, rfl⟩ := belongs_iff.1 place
        simp [place, adopt_of_not_covered fun covered => filed (isFiled_iff.2 covered)]
    · simp [same]

/-- The registry with handles filed one after another. -/
def fileEach (registry : Registry) (filings : List Filing) : Registry :=
  filings.foldl (fun registry filing => registry.file filing.typeName filing.handle) registry

/-- Filing changes the filings only. -/
theorem fileEach_eq (registry : Registry) (filings : List Filing) :
    ∃ filed, registry.fileEach filings = { registry with filings := filed } := by
  induction filings generalizing registry with
  | nil => exact ⟨registry.filings, rfl⟩
  | cons filing filings ih =>
    obtain ⟨filed, later⟩ := ih (registry.file filing.typeName filing.handle)
    refine ⟨filed, later.trans ?_⟩
    rw [file]
    split
    · rfl
    · rfl

@[simp]
theorem catalog_fileEach (registry : Registry) (filings : List Filing) :
    (registry.fileEach filings).catalog = registry.catalog := by
  obtain ⟨filed, same⟩ := registry.fileEach_eq filings
  rw [same]

@[simp]
theorem imports_fileEach (registry : Registry) (filings : List Filing) :
    (registry.fileEach filings).imports = registry.imports := by
  obtain ⟨filed, same⟩ := registry.fileEach_eq filings
  rw [same]

@[simp]
theorem discovery_fileEach (registry : Registry) (filings : List Filing) :
    (registry.fileEach filings).discovery = registry.discovery := by
  obtain ⟨filed, same⟩ := registry.fileEach_eq filings
  rw [same]

@[simp]
theorem order_fileEach (registry : Registry) (filings : List Filing) :
    (registry.fileEach filings).order = registry.order := by
  obtain ⟨filed, same⟩ := registry.fileEach_eq filings
  rw [same]

/-- The handles that filings put into a bucket. -/
def bound (filings : List Filing) (typeName : String) (operation : Option String) (arity : Nat) :
    List Handle :=
  ((filings.filter (·.typeName = typeName)).map (·.handle)).filter (belongs operation arity)

theorem bucket_fileEach (registry : Registry) (filings : List Filing) (typeName : String)
    (operation : Option String) (arity : Nat) :
    (registry.fileEach filings).bucket typeName operation arity =
      adoptAll (registry.bucket typeName operation arity)
        (bound filings typeName operation arity) := by
  induction filings generalizing registry with
  | nil => rfl
  | cons filing filings ih =>
    have later := ih (registry.file filing.typeName filing.handle)
    rw [bucket_file] at later
    refine later.trans ?_
    by_cases same : filing.typeName = typeName
    · cases place : belongs operation arity filing.handle with
      | false => simp [bound, same, place]
      | true => simp [bound, same, place, adoptAll]
    · simp [bound, same]

end Colloquy.Registry
