import Colloquy.Proofs.Registry.History

/-!
# Inheritance of virtual handles

A virtual handle reaches the subtypes of its type, whether they are discovered before or after its
registration.  The invariant behind this relates the buckets to the handles that were made: a bucket
holds made handles only, and covers every made handle that has a place in it.
-/

namespace Colloquy

namespace Handle

/-- In one bucket, handles with the same external parameters are all virtual or all not. -/
theorem virtual_of_sameParams {handle other : Handle} (arities : other.arity = handle.arity)
    (same : other.external.sameParams handle.external) (virtual : handle.kind = .virtual) :
    other.kind = .virtual := by
  obtain ⟨params, -⟩ := sameParams_iff.1 same
  have external : other.external.arity = handle.external.arity := by
    rw [Signature.arity, Signature.arity, params]
  by_cases kept : other.kind = .virtual
  · exact kept
  · rw [arity, arity, if_neg kept, if_pos virtual, external] at arities
    omega

theorem virtual_iff_of_sameParams {handle other : Handle} (arities : other.arity = handle.arity)
    (same : other.external.sameParams handle.external) :
    other.kind = .virtual ↔ handle.kind = .virtual := by
  obtain ⟨params, variadic⟩ := sameParams_iff.1 same
  have back : handle.external.sameParams other.external :=
    sameParams_iff.2 ⟨params.symm, variadic.symm⟩
  exact ⟨virtual_of_sameParams arities.symm back, virtual_of_sameParams arities same⟩

theorem Covered.of_sameParams {handles : List Handle} {handle other : Handle}
    (covered : Covered handles other) (same : other.external.sameParams handle.external) :
    Covered handles handle := by
  obtain ⟨cover, member, first⟩ := covered
  obtain ⟨params, variadic⟩ := sameParams_iff.1 same
  obtain ⟨firstParams, firstVariadic⟩ := sameParams_iff.1 first
  refine ⟨cover, member, sameParams_iff.2 ⟨?_, ?_⟩⟩
  · rw [firstParams, params]
  · rw [firstVariadic, variadic]

end Handle

open Handle

namespace Registry

/-- The buckets hold made handles, under discovered types, and cover every made handle that has a
place in them. -/
structure Settled (registry : Registry) (made : List Handle) : Prop where
  /-- The discovered types are linked. -/
  linked : registry.discovery.Linked registry.catalog.hierarchy
  /-- Handles are made for discovered types. -/
  known : ∀ handle ∈ made, registry.discovery.contains handle.declaring
  /-- Virtual handles have a name. -/
  named : ∀ handle ∈ made, handle.kind = .virtual → handle.name.isSome
  /-- A filed handle was made, and its place is discovered. -/
  filed : ∀ {typeName operation arity handle},
    handle ∈ registry.bucket typeName operation arity →
      handle ∈ made ∧ registry.discovery.contains typeName
  /-- A made handle is covered wherever it has a place. -/
  reaches : ∀ {typeName operation arity handle},
    registry.discovery.contains typeName → handle ∈ made →
      concerns registry.catalog.hierarchy typeName operation arity handle →
        Covered (registry.bucket typeName operation arity) handle

theorem settled_fresh (catalog : Catalog) (packages : List String) (order : TableOrder) :
    Settled (fresh catalog packages order) [] where
  linked := Discovery.linked_empty _
  known handle member := by cases member
  named handle member := by cases member
  filed member := by cases (mem_bucket_iff.1 member).1
  reaches _ member := by cases member

theorem concerns_self {hierarchy : Hierarchy} {operation : Option String} {arity : Nat}
    {handle : Handle} (belonging : belongs operation arity handle) :
    concerns hierarchy handle.declaring operation arity handle := by
  simp [concerns, belonging]

theorem contains_learn {registry : Registry} {typeName : String}
    (unknown : ¬ registry.discovery.contains typeName) :
    (registry.learn typeName).discovery.contains typeName := by
  rw [learn, Discovery.contains_iff, Discovery.names_discover unknown]
  exact List.mem_append_right _ (List.mem_singleton_self _)

theorem mem_supertypesOf_learn {registry : Registry}
    (linked : registry.discovery.Linked registry.catalog.hierarchy) {typeName : String}
    (unknown : ¬ registry.discovery.contains typeName) {supertype : String} :
    supertype ∈ (registry.learn typeName).discovery.supertypesOf typeName ↔
      registry.discovery.contains supertype ∧
        registry.catalog.hierarchy.isAssignable typeName supertype := by
  have known := contains_learn unknown
  rw [learn] at known ⊢
  rw [(linked.discover typeName).mem_supertypesOf_iff known, Discovery.contains_iff,
    Discovery.names_discover unknown, List.mem_append, List.mem_singleton,
    ← Discovery.contains_iff]
  constructor
  · rintro ⟨before | rfl, different, assignable⟩
    · exact ⟨before, assignable⟩
    · exact absurd rfl different
  · rintro ⟨before, assignable⟩
    refine ⟨.inl before, ?_, assignable⟩
    rintro rfl
    exact unknown before

/-- A new type inherits an operation from the discovered types above it that have handles of it. -/
theorem mem_sources_iff {registry : Registry}
    (linked : registry.discovery.Linked registry.catalog.hierarchy) {typeName : String}
    (unknown : ¬ registry.discovery.contains typeName) {operation : Option String}
    {supertype : String} :
    supertype ∈ registry.sources typeName operation ↔
      operation.isSome ∧ registry.discovery.contains supertype ∧
        registry.catalog.hierarchy.isAssignable typeName supertype ∧
        ∃ handle, handle ∈ registry.handles supertype operation := by
  simp only [sources, List.mem_map, List.mem_filter, (registry.order.perm _).mem_iff,
    mem_keys_iff, Bool.and_eq_true, decide_eq_true_eq, mem_supertypesOf_learn linked unknown]
  constructor
  · rintro ⟨key, ⟨held, rfl, named, discovered, assignable⟩, rfl⟩
    exact ⟨named, discovered, assignable, held⟩
  · rintro ⟨named, discovered, assignable, held⟩
    exact ⟨⟨supertype, operation⟩, ⟨held, rfl, named, discovered, assignable⟩, rfl⟩

theorem nodup_sources (registry : Registry) (typeName : String) (operation : Option String) :
    (registry.sources typeName operation).Nodup := by
  rw [sources]
  refine List.Nodup.map_on ?_ (((registry.order.perm _).nodup_iff.2 registry.nodup_keys).filter _)
  intro first listed second next same
  simp only [List.mem_filter, Bool.and_eq_true, decide_eq_true_eq] at listed next
  cases first
  cases second
  simp_all

/-- A new type inherits from the discovered types above it. -/
theorem mem_inheritedInto_iff {registry : Registry}
    (linked : registry.discovery.Linked registry.catalog.hierarchy) {typeName : String}
    (unknown : ¬ registry.discovery.contains typeName) {operation : Option String} {arity : Nat}
    {handle : Handle} :
    handle ∈ registry.inheritedInto typeName operation arity ↔
      operation.isSome ∧ ∃ supertype, registry.discovery.contains supertype ∧
        registry.catalog.hierarchy.isAssignable typeName supertype ∧
        handle ∈ registry.bucket supertype operation arity ∧ handle.kind = .virtual := by
  simp only [inheritedInto, List.mem_flatMap, mem_sources_iff linked unknown, List.mem_filter,
    decide_eq_true_eq]
  constructor
  · rintro ⟨supertype, ⟨named, discovered, assignable, -⟩, held, virtual⟩
    exact ⟨named, supertype, discovered, assignable, held, virtual⟩
  · rintro ⟨named, supertype, discovered, assignable, held, virtual⟩
    have listed : handle ∈ registry.handles supertype operation := (List.mem_filter.1 held).1
    exact ⟨supertype, ⟨named, discovered, assignable, handle, listed⟩, held, virtual⟩

theorem concerns_iff {hierarchy : Hierarchy} {typeName : String} {operation : Option String}
    {arity : Nat} {handle : Handle} :
    concerns hierarchy typeName operation arity handle ↔
      belongs operation arity handle ∧ (handle.declaring = typeName ∨
        handle.kind = .virtual ∧ hierarchy.isAssignable typeName handle.declaring) := by
  simp [concerns]

/-- A made handle with a place under a new type is virtual, of a supertype, and covered there by a
virtual handle. -/
theorem Settled.above_new {registry : Registry} {made : List Handle}
    (settled : registry.Settled made) {typeName : String}
    (unknown : ¬ registry.discovery.contains typeName) {operation : Option String} {arity : Nat}
    {handle : Handle} (member : handle ∈ made)
    (concerned : concerns registry.catalog.hierarchy typeName operation arity handle) :
    handle.kind = .virtual ∧
      registry.catalog.hierarchy.isAssignable typeName handle.declaring ∧
        ∃ cover ∈ registry.bucket handle.declaring operation arity,
          cover.kind = .virtual ∧ cover.external.sameParams handle.external := by
  obtain ⟨belonging, place⟩ := concerns_iff.1 concerned
  have declared := settled.known handle member
  rcases place with rfl | ⟨virtual, assignable⟩
  · exact absurd declared unknown
  · obtain ⟨cover, held, covers⟩ := settled.reaches declared member (concerns_self belonging)
    have arities : cover.arity = handle.arity := by
      rw [(mem_bucket_iff.1 held).2.2, (belongs_iff.1 belonging).2]
    exact ⟨virtual, assignable, cover, held, virtual_of_sameParams arities covers virtual, covers⟩

/-- Only operations have buckets with virtual handles. -/
theorem Settled.named_of_mem_bucket {registry : Registry} {made : List Handle}
    (settled : registry.Settled made) {typeName : String} {operation : Option String} {arity : Nat}
    {handle : Handle} (held : handle ∈ registry.bucket typeName operation arity)
    (virtual : handle.kind = .virtual) : operation.isSome := by
  rw [← (mem_bucket_iff.1 held).2.1]
  exact settled.named handle (settled.filed held).1 virtual

theorem Settled.importing {registry : Registry} {made : List Handle}
    (settled : registry.Settled made) (imports : Imports) :
    ({ registry with imports } : Registry).Settled made :=
  ⟨settled.linked, settled.known, settled.named, settled.filed, settled.reaches⟩

/-- Discovering a type keeps the buckets settled: a handle with a place under the new type is
covered under its own type, and so is inherited. -/
theorem Settled.discovering {registry : Registry} {made : List Handle}
    (settled : registry.Settled made) (typeName : String) :
    (registry.discover typeName).Settled made := by
  by_cases before : registry.discovery.contains typeName
  · rw [discover_of_contains before]
    exact settled
  constructor
  · rw [discovery_discover, catalog_discover]
    exact settled.linked.discover typeName
  · intro handle member
    exact contains_discover.2 (.inl (settled.known handle member))
  · exact settled.named
  · intro place operation arity handle member
    by_cases same : typeName = place
    · subst same
      rw [bucket_discover_self before] at member
      refine ⟨?_, contains_discover.2 (.inr rfl)⟩
      rcases mem_of_mem_adoptAll member with held | inherited
      · exact (settled.filed held).1
      · obtain ⟨-, supertype, -, -, held, -⟩ :=
          (mem_inheritedInto_iff settled.linked before).1 inherited
        exact (settled.filed held).1
    · rw [bucket_discover_of_ne same] at member
      obtain ⟨listed, discovered⟩ := settled.filed member
      exact ⟨listed, contains_discover.2 (.inl discovered)⟩
  · intro place operation arity handle discovered member concerned
    rw [catalog_discover] at concerned
    by_cases same : typeName = place
    · subst same
      -- what covers the handle under its own type is inherited and covers it here
      obtain ⟨-, assignable, cover, held, coverVirtual, covers⟩ :=
        settled.above_new before member concerned
      have declared := settled.known handle member
      have named := settled.named_of_mem_bucket held coverVirtual
      have inherited : cover ∈ registry.inheritedInto typeName operation arity :=
        (mem_inheritedInto_iff settled.linked before).2
          ⟨named, _, declared, assignable, held, coverVirtual⟩
      rw [bucket_discover_self before]
      exact (covered_adoptAll inherited).of_sameParams covers
    · rw [bucket_discover_of_ne same]
      have old : registry.discovery.contains place := by
        rcases contains_discover.1 discovered with old | new
        · exact old
        · exact absurd new.symm same
      exact settled.reaches old member concerned

/-- Entering a handle keeps the buckets settled. -/
theorem Settled.entering {registry : Registry} {made : List Handle}
    (settled : registry.Settled made) {handle : Handle} (fits : registry.Fits handle) :
    (registry.enter handle).Settled (made ++ [handle]) := by
  have known := fits.discovered
  constructor
  · rw [discovery_enter, catalog_enter]
    exact settled.linked
  · intro other member
    rw [discovery_enter]
    rcases List.mem_append.1 member with earlier | last
    · exact settled.known other earlier
    · rwa [List.mem_singleton.1 last]
  · intro other member virtual
    rcases List.mem_append.1 member with earlier | last
    · exact settled.named other earlier virtual
    · rw [List.mem_singleton.1 last] at virtual ⊢
      exact fits.named virtual
  · intro place operation arity other member
    rw [discovery_enter]
    rw [enter, bucket_fileEach] at member
    rcases mem_of_mem_adoptAll member with held | entered
    · obtain ⟨listed, discovered⟩ := settled.filed held
      exact ⟨List.mem_append_left _ listed, discovered⟩
    · obtain ⟨rfl, listed, -⟩ := mem_bound_places.1 entered
      refine ⟨List.mem_append_right _ (List.mem_singleton_self _), ?_⟩
      exact contains_of_mem_places settled.linked known listed
  · intro place operation arity other discovered member concerned
    rw [discovery_enter] at discovered
    rw [catalog_enter] at concerned
    rw [bucket_enter settled.linked known discovered]
    rcases List.mem_append.1 member with earlier | last
    · have covered := settled.reaches discovered earlier concerned
      split
      · exact covered.mono (prefix_adopt _ handle).subset
      · exact covered
    · obtain rfl := List.mem_singleton.1 last
      rw [if_pos concerned]
      exact covered_adopt _ other

theorem Settled.later {start finish : Registry} {earlier made : List Handle}
    (settled : start.Settled earlier) (history : Evolves start made finish) :
    finish.Settled (earlier ++ made) := by
  induction history with
  | refl =>
    rw [List.append_nil]
    exact settled
  | importing imports _ ih => exact ih.importing imports
  | discovering typeName _ ih => exact ih.discovering typeName
  | entering handle _ fits ih =>
    rw [← List.append_assoc]
    exact ih.entering fits

/-- The buckets are settled after every run. -/
theorem settled_run (catalog : Catalog) (packages : List String) (order : TableOrder)
    (actions : List Action) :
    ((fresh catalog packages order).run actions).Settled
    ((fresh catalog packages order).made actions) :=
  (settled_fresh catalog packages order).later (evolves_run _ actions)

/-- Every filed handle is related to the type that it is filed under. -/
def FiledAs (related : String → Handle → Prop) (registry : Registry) : Prop :=
  ∀ typeName operation arity, ∀ handle ∈ registry.bucket typeName operation arity,
    related typeName handle

section Related

variable {related : String → Handle → Prop}

theorem filedAs_fresh (catalog : Catalog) (packages : List String) (order : TableOrder) :
    (fresh catalog packages order).FiledAs related := by
  intro typeName operation arity handle member
  cases (mem_bucket_iff.1 member).1

theorem FiledAs.discovering {registry : Registry} {made : List Handle}
    (filed : registry.FiledAs related) (settled : registry.Settled made) {typeName : String}
    (inherits : ∀ supertype handle,
      registry.catalog.hierarchy.isAssignable typeName supertype → handle.kind = .virtual →
        related supertype handle → related typeName handle) :
    (registry.discover typeName).FiledAs related := by
  by_cases before : registry.discovery.contains typeName
  · rw [discover_of_contains before]
    exact filed
  intro place operation arity handle member
  by_cases same : typeName = place
  · subst same
    rw [bucket_discover_self before] at member
    rcases mem_of_mem_adoptAll member with held | inherited
    · exact filed _ _ _ handle held
    · obtain ⟨-, supertype, -, assignable, held, virtual⟩ :=
        (mem_inheritedInto_iff settled.linked before).1 inherited
      exact inherits supertype handle assignable virtual (filed _ _ _ handle held)
  · rw [bucket_discover_of_ne same] at member
    exact filed _ _ _ handle member

theorem FiledAs.entering {registry : Registry} (filed : registry.FiledAs related)
    {handle : Handle} (fitting : ∀ typeName ∈ registry.places handle, related typeName handle) :
    (registry.enter handle).FiledAs related := by
  intro place operation arity other member
  rw [enter, bucket_fileEach] at member
  rcases mem_of_mem_adoptAll member with held | entered
  · exact filed _ _ _ other held
  · obtain ⟨rfl, listed, -⟩ := mem_bound_places.1 entered
    exact fitting place listed

/-- A relation that holds where a handle is entered, and that a virtual handle keeps further down,
holds of every filed handle. -/
theorem filedAs_of_evolves {start finish : Registry} {earlier made : List Handle}
    (filed : start.FiledAs related) (settled : start.Settled earlier)
    (history : Evolves start made finish)
    (inherits : ∀ typeName supertype handle,
      start.catalog.hierarchy.isAssignable typeName supertype → handle.kind = .virtual →
        related supertype handle → related typeName handle)
    (fitting : ∀ typeName handle, (handle.declaring = typeName ∨ handle.kind = .virtual ∧
      start.catalog.hierarchy.isAssignable typeName handle.declaring) → related typeName handle) :
    finish.FiledAs related := by
  induction history with
  | refl => exact filed
  | importing imports _ ih => exact ih
  | discovering typeName history ih =>
    refine ih.discovering (settled.later history) ?_
    rw [history.catalog_eq]
    exact inherits typeName
  | entering handle history fits ih =>
    have linked := (settled.later history).linked
    refine ih.entering fun typeName listed => fitting typeName handle ?_
    rw [← history.catalog_eq]
    have discovered := contains_of_mem_places linked fits.discovered listed
    exact (mem_places_iff linked fits.discovered discovered).1 listed

end Related

/-- A virtual handle is filed only under types that are assignable to its own one. -/
def FiledBelow (registry : Registry) : Prop :=
  ∀ typeName operation arity, ∀ handle ∈ registry.bucket typeName operation arity,
    handle.kind = .virtual → registry.catalog.hierarchy.isAssignable typeName handle.declaring

theorem filedBelow_of_evolves {start finish : Registry} {earlier made : List Handle}
    (below : start.FiledBelow) (settled : start.Settled earlier)
    (rooted : start.catalog.hierarchy.Rooted) (history : Evolves start made finish) :
    finish.FiledBelow := by
  rw [FiledBelow, history.catalog_eq]
  refine filedAs_of_evolves below settled history ?_ ?_
  · intro typeName supertype handle assignable _ above virtual
    exact rooted.isAssignable_trans assignable (above virtual)
  · rintro typeName handle (rfl | ⟨-, assignable⟩) -
    · exact Hierarchy.isAssignable_self _ _
    · exact assignable

/-- The virtual handles of each type are those that it shares with the types above it. -/
structure Inheritance (registry : Registry) : Prop where
  /-- A type has the virtual handles of each type that it is assignable to, or others with the same
  external parameters. -/
  inherited : ∀ subtype supertype, registry.discovery.contains subtype →
    registry.discovery.contains supertype →
    registry.catalog.hierarchy.isAssignable subtype supertype →
    ∀ operation arity, ∀ handle ∈ registry.bucket supertype operation arity,
      handle.kind = .virtual →
        ∃ other ∈ registry.bucket subtype operation arity,
          other.kind = .virtual ∧ other.external.sameParams handle.external
  /-- A virtual handle is filed only under types that are assignable to its own one. -/
  declared : registry.FiledBelow

/-- After every run, whatever was discovered or registered first, the discovered types inherit the
virtual handles of their supertypes. -/
theorem inheritance_run (catalog : Catalog) (rooted : catalog.hierarchy.Rooted)
    (packages : List String) (order : TableOrder) (actions : List Action) :
    Inheritance ((fresh catalog packages order).run actions) := by
  have history := evolves_run (fresh catalog packages order) actions
  have settled := settled_run catalog packages order actions
  have below : ((fresh catalog packages order).run actions).FiledBelow := by
    refine filedBelow_of_evolves ?_ (settled_fresh catalog packages order) rooted history
    intro typeName operation arity handle member
    cases (mem_bucket_iff.1 member).1
  refine ⟨?_, below⟩
  intro subtype supertype lower upper assignable operation arity handle member virtual
  obtain ⟨listed, -⟩ := settled.filed member
  obtain ⟨-, name, arities⟩ := mem_bucket_iff.1 member
  have rootedHere : ((fresh catalog packages order).run actions).catalog.hierarchy.Rooted := by
    rw [history.catalog_eq]
    exact rooted
  have above := rootedHere.isAssignable_trans assignable (below _ _ _ handle member virtual)
  have concerned : concerns ((fresh catalog packages order).run actions).catalog.hierarchy subtype
      operation arity handle := by
    simp [concerns, belongs, name, arities, virtual, above]
  obtain ⟨cover, held, covers⟩ := settled.reaches lower listed concerned
  have same : cover.arity = handle.arity := by
    rw [(mem_bucket_iff.1 held).2.2, arities]
  exact ⟨cover, held, virtual_of_sameParams same covers virtual, covers⟩

/-- A member that takes one parameter and returns nothing. -/
def idle (kind : MemberKind) (param : TypeRef) (variadic : Bool) : Member :=
  ⟨kind, ⟨[param], variadic, none⟩, fun _ => return .null⟩

/-- The constructor of ducks. -/
def hatch : Member where
  kind := .constructor
  signature := ⟨[], false, none⟩
  run _ := do
    let (value, heap) := (← get).allocate "Duck" (.text "duck")
    set heap
    return value

/-- Ducks are swimmers and flyers, and swimmers and flyers move. -/
def pond : Catalog where
  hierarchy := ⟨[(TypeName.object, []), ("Swimmer", [TypeName.object]),
    ("Flyer", [TypeName.object]), ("Duck", ["Swimmer", "Flyer"])]⟩
  members :=
    [(⟨"Swimmer", some "move"⟩, [idle .method (.primitive (.numeric (.whole .int))) false,
        idle .method (.primitive .char) false]),
      (⟨"Flyer", some "move"⟩, [idle .method (.primitive .boolean) false]),
      (⟨"Duck", none⟩, [hatch]),
      (⟨"Duck", some "all"⟩, [idle .static (.array (.primitive (.numeric (.whole .int)))) true])]

/-- Ducks inherit what was registered before they were discovered. -/
theorem inheritance_late_duck :
    pond.hierarchy.Rooted ∧
      Inheritance ((fresh pond [] .ofEntry).run
        [.register .virtual "Swimmer" (some "move") "(int)" none,
          .register .virtual "Flyer" (some "move") "(boolean)" none, .resolveType "Duck"]) :=
  ⟨rfl, inheritance_run pond rfl [] .ofEntry _⟩

end Registry

end Colloquy
