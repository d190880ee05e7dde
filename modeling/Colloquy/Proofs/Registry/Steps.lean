import Colloquy.Proofs.Catalog.Links
import Colloquy.Proofs.Registry.Filing

/-!
# Steps of a registry

A registry changes in three ways: its imports change, a type is discovered, and a made handle is
entered.  What each of these does to the buckets is stated once here; what they preserve holds in
every registry that they lead to.
-/

namespace Colloquy.Registry

open Handle

/-- The places that a handle is entered in: its type and, if it is virtual, the discovered
subclasses of that. -/
def places (registry : Registry) (handle : Handle) : List String :=
  handle.declaring ::
    if handle.kind = .virtual then registry.discovery.subclassesOf handle.declaring else []

/-- The registry with a handle entered in all its places. -/
def enter (registry : Registry) (handle : Handle) : Registry :=
  registry.fileEach ((registry.places handle).map (⟨·, handle⟩))

/-- A handle stands for a member of the host, on a discovered type. -/
structure Fits (registry : Registry) (handle : Handle) : Prop where
  /-- The type is discovered. -/
  discovered : registry.discovery.contains handle.declaring
  /-- The host function is that of the declared member. -/
  member : ∃ member,
    member? registry.catalog handle.kind handle.declaring handle.name handle.declared =
        some member ∧
      handle.run = member.run

/-- Virtual members have a name. -/
theorem Fits.named {registry : Registry} {handle : Handle} (fits : registry.Fits handle)
    (virtual : handle.kind = .virtual) : handle.name.isSome := by
  obtain ⟨member, offered, -⟩ := fits.member
  rw [virtual] at offered
  cases called : handle.name with
  | none =>
    rw [called] at offered
    cases offered
  | some operation => rfl

/-- The steps that lead from one registry to another, with the handles that are entered on the
way. -/
inductive Evolves (start : Registry) : List Handle → Registry → Prop
  | refl : Evolves start [] start
  | importing {made : List Handle} {registry : Registry} (imports : Imports)
      (earlier : Evolves start made registry) : Evolves start made { registry with imports }
  | discovering {made : List Handle} {registry : Registry} (typeName : String)
      (earlier : Evolves start made registry) : Evolves start made (registry.discover typeName)
  | entering {made : List Handle} {registry : Registry} (handle : Handle)
      (earlier : Evolves start made registry) (fits : registry.Fits handle) :
      Evolves start (made ++ [handle]) (registry.enter handle)

theorem Evolves.trans {start middle finish : Registry} {earlier later : List Handle}
    (first : Evolves start earlier middle) (second : Evolves middle later finish) :
    Evolves start (earlier ++ later) finish := by
  induction second with
  | refl =>
    rw [List.append_nil]
    exact first
  | importing imports _ ih => exact .importing imports ih
  | discovering typeName _ ih => exact .discovering typeName ih
  | entering handle _ fits ih =>
    rw [← List.append_assoc]
    exact .entering handle ih fits

/-- The registry that knows a type, without the handles that the type inherits. -/
def learn (registry : Registry) (typeName : String) : Registry :=
  { registry with discovery := registry.discovery.discover registry.catalog.hierarchy typeName }

theorem discover_of_contains {registry : Registry} {typeName : String}
    (known : registry.discovery.contains typeName) : registry.discover typeName = registry := by
  rw [discover, if_pos known]

theorem discover_eq {registry : Registry} {typeName : String}
    (unknown : ¬ registry.discovery.contains typeName) :
    registry.discover typeName =
      (registry.learn typeName).fileEach
        (((registry.learn typeName).inherited typeName).map (⟨typeName, ·⟩)) := by
  rw [discover, if_neg unknown, fileEach, List.foldl_map]
  rfl

/-- A type without discovered supertypes inherits nothing. -/
theorem discover_of_alone {registry : Registry} {typeName : String}
    (unknown : ¬ registry.discovery.contains typeName)
    (alone : (registry.learn typeName).discovery.supertypesOf typeName = []) :
    registry.discover typeName = registry.learn typeName := by
  have nothing : (registry.learn typeName).inherited typeName = [] := by
    simp [inherited, alone]
  rw [discover_eq unknown, nothing]
  rfl

/-- A discovery changes the discovered types and the filings only. -/
theorem discover_eq_learn (registry : Registry) (typeName : String) :
    ∃ filed, registry.discover typeName = { registry.learn typeName with filings := filed } := by
  by_cases known : registry.discovery.contains typeName
  · refine ⟨registry.filings, ?_⟩
    rw [discover_of_contains known, learn, Discovery.discover, if_pos known]
  · rw [discover_eq known]
    exact fileEach_eq _ _

@[simp]
theorem catalog_discover (registry : Registry) (typeName : String) :
    (registry.discover typeName).catalog = registry.catalog := by
  obtain ⟨filed, same⟩ := registry.discover_eq_learn typeName
  rw [same]
  rfl

@[simp]
theorem imports_discover (registry : Registry) (typeName : String) :
    (registry.discover typeName).imports = registry.imports := by
  obtain ⟨filed, same⟩ := registry.discover_eq_learn typeName
  rw [same]
  rfl

@[simp]
theorem discovery_discover (registry : Registry) (typeName : String) :
    (registry.discover typeName).discovery =
      registry.discovery.discover registry.catalog.hierarchy typeName := by
  obtain ⟨filed, same⟩ := registry.discover_eq_learn typeName
  rw [same]
  rfl

@[simp]
theorem order_discover (registry : Registry) (typeName : String) :
    (registry.discover typeName).order = registry.order := by
  obtain ⟨filed, same⟩ := registry.discover_eq_learn typeName
  rw [same]
  rfl

@[simp]
theorem imports_enter (registry : Registry) (handle : Handle) :
    (registry.enter handle).imports = registry.imports :=
  imports_fileEach _ _

@[simp]
theorem catalog_enter (registry : Registry) (handle : Handle) :
    (registry.enter handle).catalog = registry.catalog :=
  catalog_fileEach _ _

@[simp]
theorem discovery_enter (registry : Registry) (handle : Handle) :
    (registry.enter handle).discovery = registry.discovery :=
  discovery_fileEach _ _

@[simp]
theorem order_enter (registry : Registry) (handle : Handle) :
    (registry.enter handle).order = registry.order :=
  order_fileEach _ _

theorem contains_discover {registry : Registry} {typeName other : String} :
    (registry.discover typeName).discovery.contains other ↔
      registry.discovery.contains other ∨ other = typeName := by
  rw [discovery_discover]
  by_cases known : registry.discovery.contains typeName
  · rw [Discovery.discover, if_pos known]
    constructor
    · exact .inl
    · rintro (before | rfl)
      · exact before
      · exact known
  · rw [Discovery.contains_iff, Discovery.names_discover known, List.mem_append,
      List.mem_singleton, Discovery.contains_iff]

/-- A part of a registry that no step changes is never changed. -/
theorem Evolves.part_eq {α : Type} (part : Registry → α)
    (importing : ∀ registry imports, part { registry with imports } = part registry)
    (discovering : ∀ registry typeName, part (registry.discover typeName) = part registry)
    (entering : ∀ registry handle, part (registry.enter handle) = part registry)
    {start finish : Registry} {made : List Handle} (history : Evolves start made finish) :
    part finish = part start := by
  induction history with
  | refl => rfl
  | importing imports _ ih => rw [importing, ih]
  | discovering typeName _ ih => rw [discovering, ih]
  | entering handle _ fits ih => rw [entering, ih]

theorem Evolves.catalog_eq {start finish : Registry} {made : List Handle} :
    Evolves start made finish → finish.catalog = start.catalog :=
  part_eq catalog (fun _ _ => rfl) catalog_discover catalog_enter

theorem Evolves.order_eq {start finish : Registry} {made : List Handle} :
    Evolves start made finish → finish.order = start.order :=
  part_eq order (fun _ _ => rfl) order_discover order_enter

/-- A type stays discovered. -/
theorem Evolves.discovered {start finish : Registry} {made : List Handle} {typeName : String}
    (history : Evolves start made finish) (known : start.discovery.contains typeName) :
    finish.discovery.contains typeName := by
  induction history with
  | refl => exact known
  | importing imports _ ih => exact ih
  | discovering other _ ih => exact contains_discover.2 (.inl ih)
  | entering handle _ fits ih =>
    rw [discovery_enter]
    exact ih

theorem Fits.later {registry finish : Registry} {handle : Handle} (fits : registry.Fits handle)
    {made : List Handle} (history : Evolves registry made finish) : finish.Fits handle where
  discovered := history.discovered fits.discovered
  member := by
    rw [history.catalog_eq]
    exact fits.member

/-- The supertypes that a type inherits handles of an operation from, in the order in which the
table visits them. -/
def sources (registry : Registry) (typeName : String) (operation : Option String) : List String :=
  ((registry.order.visit registry.keys).filter fun key =>
    key.operation = operation && (key.operation.isSome &&
      key.typeName ∈ (registry.learn typeName).discovery.supertypesOf typeName)).map (·.typeName)

/-- The virtual handles that a type inherits into a bucket, source by source. -/
def inheritedInto (registry : Registry) (typeName : String) (operation : Option String)
    (arity : Nat) : List Handle :=
  (registry.sources typeName operation).flatMap fun supertype =>
    (registry.bucket supertype operation arity).filter (·.kind = .virtual)

theorem bound_map (handles : List Handle) (typeName : String) (operation : Option String)
    (arity : Nat) :
    bound (handles.map (⟨typeName, ·⟩)) typeName operation arity =
      handles.filter (belongs operation arity) := by
  simp [bound, List.filter_map, Function.comp_def]

theorem bound_map_of_ne {typeName other : String} (different : typeName ≠ other)
    (handles : List Handle) (operation : Option String) (arity : Nat) :
    bound (handles.map (⟨typeName, ·⟩)) other operation arity = [] := by
  simp [bound, List.filter_map, Function.comp_def, different]

/-- Of the handles of a key, those with the operation and the arity of a bucket are the handles
of that bucket. -/
theorem byArity_handles_filter (registry : Registry) (key : FilingKey)
    (operation : Option String) (arity : Nat) :
    (byArity (registry.handles key.typeName key.operation)).filter (belongs operation arity) =
      if key.operation = operation then registry.bucket key.typeName operation arity else [] := by
  split
  · rename_i same
    subst same
    have named : ∀ handle ∈ byArity (registry.handles key.typeName key.operation),
        handle.name = key.operation := by
      intro handle member
      obtain ⟨arity, -, held⟩ := List.mem_flatMap.1 member
      exact (mem_bucket_iff.1 held).2.1
    rw [bucket, ← byArity_filter]
    refine List.filter_congr fun handle member => ?_
    simp [belongs, named handle member]
  · rename_i different
    refine List.filter_eq_nil_iff.2 fun handle member belonging => different ?_
    obtain ⟨arity, -, held⟩ := List.mem_flatMap.1 member
    rw [← (mem_bucket_iff.1 held).2.1, (belongs_iff.1 belonging).1]

theorem inherited_filter (registry : Registry) (typeName : String) (operation : Option String)
    (arity : Nat) :
    ((registry.learn typeName).inherited typeName).filter (belongs operation arity) =
      registry.inheritedInto typeName operation arity := by
  have parts (key : FilingKey) :
      ((byArity ((registry.learn typeName).handles key.typeName key.operation)).filter
          (·.kind = .virtual)).filter (belongs operation arity) =
        if key.operation = operation then
          (registry.bucket key.typeName operation arity).filter (·.kind = .virtual) else [] := by
    rw [List.filter_comm]
    change ((byArity (registry.handles _ _)).filter _).filter _ = _
    rw [byArity_handles_filter]
    split
    · rfl
    · rfl
  rw [inherited, inheritedInto, sources, List.filter_flatMap, List.filter_flatMap,
    List.flatMap_map]
  simp only [parts]
  change List.flatMap _ (List.filter _ (registry.order.visit registry.keys)) = _
  induction registry.order.visit registry.keys with
  | nil => rfl
  | cons key visited ih =>
    by_cases same : key.operation = operation
    · simp only [List.filter_cons, same, decide_true, Bool.true_and]
      split
      · rw [List.flatMap_cons, List.flatMap_cons, if_pos same, ih]
      · exact ih
    · simp only [List.filter_cons, same, decide_false, Bool.false_and]
      split
      · rw [List.flatMap_cons, if_neg same, List.nil_append]
        exact ih
      · exact ih

/-- A new type takes over the handles of its supertypes. -/
theorem bucket_discover_self {registry : Registry} {typeName : String}
    (unknown : ¬ registry.discovery.contains typeName) (operation : Option String) (arity : Nat) :
    (registry.discover typeName).bucket typeName operation arity =
      adoptAll (registry.bucket typeName operation arity)
        (registry.inheritedInto typeName operation arity) := by
  rw [discover_eq unknown, bucket_fileEach, bound_map, inherited_filter]
  rfl

theorem bucket_discover_of_ne {typeName other : String} (different : typeName ≠ other)
    (registry : Registry) (operation : Option String) (arity : Nat) :
    (registry.discover typeName).bucket other operation arity =
      registry.bucket other operation arity := by
  by_cases known : registry.discovery.contains typeName
  · rw [discover_of_contains known]
  · rw [discover_eq known, bucket_fileEach, bound_map_of_ne different]
    rfl

/-- A handle has a place in the bucket of a type: it belongs there, and is declared by the type or,
if it is virtual, by a supertype. -/
def concerns (hierarchy : Hierarchy) (typeName : String) (operation : Option String) (arity : Nat)
    (handle : Handle) : Bool :=
  belongs operation arity handle &&
    (handle.declaring = typeName ||
      handle.kind = .virtual && hierarchy.isAssignable typeName handle.declaring)

theorem mem_places_iff {registry : Registry}
    (linked : registry.discovery.Linked registry.catalog.hierarchy) {handle : Handle}
    (known : registry.discovery.contains handle.declaring) {typeName : String}
    (discovered : registry.discovery.contains typeName) :
    typeName ∈ registry.places handle ↔
      handle.declaring = typeName ∨
        handle.kind = .virtual ∧
          registry.catalog.hierarchy.isAssignable typeName handle.declaring := by
  rw [places, List.mem_cons]
  by_cases virtual : handle.kind = .virtual
  · rw [if_pos virtual, linked.mem_subclassesOf_iff known]
    constructor
    · rintro (same | ⟨-, -, assignable⟩)
      · exact .inl same.symm
      · exact .inr ⟨virtual, assignable⟩
    · rintro (same | ⟨-, assignable⟩)
      · exact .inl same.symm
      · by_cases same : typeName = handle.declaring
        · exact .inl same
        · exact .inr ⟨discovered, same, assignable⟩
  · rw [if_neg virtual]
    constructor
    · rintro (same | absent)
      · exact .inl same.symm
      · cases absent
    · rintro (same | ⟨isVirtual, -⟩)
      · exact .inl same.symm
      · exact absurd isVirtual virtual

theorem contains_of_mem_places {registry : Registry}
    (linked : registry.discovery.Linked registry.catalog.hierarchy) {handle : Handle}
    (known : registry.discovery.contains handle.declaring) {typeName : String}
    (listed : typeName ∈ registry.places handle) : registry.discovery.contains typeName := by
  rw [places, List.mem_cons] at listed
  rcases listed with rfl | below
  · exact known
  · split at below
    · exact ((linked.mem_subclassesOf_iff known).1 below).1
    · cases below

theorem mem_bound_places {registry : Registry} {handle other : Handle} {typeName : String}
    {operation : Option String} {arity : Nat} :
    other ∈ bound ((registry.places handle).map (⟨·, handle⟩)) typeName operation arity ↔
      other = handle ∧ typeName ∈ registry.places handle ∧ belongs operation arity handle := by
  simp only [bound, List.mem_filter, List.mem_map]
  constructor
  · rintro ⟨⟨filing, ⟨⟨place, listed, rfl⟩, here⟩, rfl⟩, belonging⟩
    have here : place = typeName := by simpa using here
    subst here
    exact ⟨rfl, listed, belonging⟩
  · rintro ⟨rfl, listed, belonging⟩
    exact ⟨⟨⟨typeName, other⟩, ⟨⟨typeName, listed, rfl⟩, by simp⟩, rfl⟩, belonging⟩

/-- A handle goes to the end of every bucket that it has a place in. -/
theorem bucket_enter {registry : Registry}
    (linked : registry.discovery.Linked registry.catalog.hierarchy) {handle : Handle}
    (known : registry.discovery.contains handle.declaring) {typeName : String}
    (discovered : registry.discovery.contains typeName) (operation : Option String)
    (arity : Nat) :
    (registry.enter handle).bucket typeName operation arity =
      if concerns registry.catalog.hierarchy typeName operation arity handle then
        adopt (registry.bucket typeName operation arity) handle
      else registry.bucket typeName operation arity := by
  have placed := mem_places_iff linked known discovered
  -- a type may be listed as a place more than once, and filing again changes nothing
  have repeated : ∀ other ∈
      bound ((registry.places handle).map (⟨·, handle⟩)) typeName operation arity,
      other = handle :=
    fun other member => (mem_bound_places.1 member).1
  have nonempty :
      bound ((registry.places handle).map (⟨·, handle⟩)) typeName operation arity ≠ [] ↔
        concerns registry.catalog.hierarchy typeName operation arity handle := by
    rw [concerns]
    constructor
    · intro filled
      obtain ⟨other, member⟩ := List.exists_mem_of_ne_nil _ filled
      obtain ⟨-, listed, belonging⟩ := mem_bound_places.1 member
      simpa [belonging] using placed.1 listed
    · intro concerned
      obtain ⟨belonging, listed⟩ : belongs operation arity handle ∧
          typeName ∈ registry.places handle := by
        simpa [placed] using concerned
      exact List.ne_nil_of_mem (mem_bound_places.2 ⟨rfl, listed, belonging⟩)
  rw [enter, bucket_fileEach]
  split
  · rename_i concerned
    exact adoptAll_eq_adopt repeated (nonempty.2 concerned)
  · rename_i unconcerned
    have empty := Decidable.of_not_not fun filled => unconcerned (nonempty.1 filled)
    rw [empty]
    rfl

end Colloquy.Registry
