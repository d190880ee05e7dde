import Colloquy.Proofs.Registry.Inheritance
import Mathlib.Data.List.Permutation

/-!
# The order of trial

The handles of a bucket are tried in their order there.  From the discovery of a type on, its
buckets grow in the order of registration; whether they begin in that order is decided when the type
takes over the handles of its supertypes, one supertype after the other, as the table visits them.
-/

namespace Colloquy

open Handle

namespace Registry

/-- The made handles that have a place in a bucket, in the order of their registration: of those
with the same external parameters, the first. -/
def ranked (hierarchy : Hierarchy) (typeName : String) (operation : Option String) (arity : Nat)
    (made : List Handle) : List Handle :=
  adoptAll [] (made.filter (concerns hierarchy typeName operation arity))

theorem ranked_append (hierarchy : Hierarchy) (typeName : String) (operation : Option String)
    (arity : Nat) (earlier later : List Handle) :
    ranked hierarchy typeName operation arity (earlier ++ later) =
      adoptAll (ranked hierarchy typeName operation arity earlier)
        (later.filter (concerns hierarchy typeName operation arity)) := by
  rw [ranked, List.filter_append, adoptAll_append]
  rfl

theorem distinct_ranked (hierarchy : Hierarchy) (typeName : String) (operation : Option String)
    (arity : Nat) (made : List Handle) :
    Distinct (ranked hierarchy typeName operation arity made) :=
  distinct_nil.adoptAll _

theorem mem_of_mem_ranked {hierarchy : Hierarchy} {typeName : String} {operation : Option String}
    {arity : Nat} {made : List Handle} {handle : Handle}
    (member : handle ∈ ranked hierarchy typeName operation arity made) :
    handle ∈ made ∧ concerns hierarchy typeName operation arity handle := by
  rcases mem_of_mem_adoptAll member with absent | listed
  · cases absent
  · exact List.mem_filter.1 listed

/-- No bucket has two handles with the same external parameters. -/
theorem distinct_bucket {start finish : Registry} {made : List Handle}
    (history : Evolves start made finish)
    (distinct : ∀ typeName operation arity, Distinct (start.bucket typeName operation arity))
    (typeName : String) (operation : Option String) (arity : Nat) :
    Distinct (finish.bucket typeName operation arity) := by
  induction history with
  | refl => exact distinct typeName operation arity
  | importing imports _ ih => exact ih
  | @discovering _ registry other _ ih =>
    by_cases known : registry.discovery.contains other
    · rw [discover_of_contains known]
      exact ih
    · by_cases same : other = typeName
      · subst same
        rw [bucket_discover_self known]
        exact ih.adoptAll _
      · rw [bucket_discover_of_ne same]
        exact ih
  | entering handle _ fits ih =>
    rw [enter, bucket_fileEach]
    exact ih.adoptAll _

/-- The bucket of a discovered type grows by the made handles that have a place in it, in the order
of their registration. -/
theorem bucket_later {start finish : Registry} {earlier made : List Handle}
    (settled : start.Settled earlier) (history : Evolves start made finish) {typeName : String}
    (discovered : start.discovery.contains typeName) (operation : Option String) (arity : Nat) :
    finish.bucket typeName operation arity =
      adoptAll (start.bucket typeName operation arity)
        (made.filter (concerns start.catalog.hierarchy typeName operation arity)) := by
  induction history with
  | refl => rfl
  | importing imports _ ih => exact ih
  | @discovering _ registry other history ih =>
    by_cases same : other = typeName
    · subst same
      rw [discover_of_contains (history.discovered discovered)]
      exact ih
    · rw [bucket_discover_of_ne same]
      exact ih
  | @entering _ registry handle history fits ih =>
    have here := history.discovered discovered
    have grown := bucket_enter (settled.later history).linked fits.discovered here operation arity
    rw [grown, List.filter_append, adoptAll_append, ← ih, history.catalog_eq]
    split
    · rename_i concerned
      rw [List.filter_cons_of_pos concerned]
      rfl
    · rename_i unconcerned
      rw [List.filter_cons_of_neg unconcerned]
      rfl

/-- Whether a bucket stands in the order of registration is neither spoilt nor repaired after the
discovery of its type. -/
theorem bucket_eq_ranked_iff {start finish : Registry} {earlier made : List Handle}
    (settled : start.Settled earlier)
    (distinct : ∀ typeName operation arity, Distinct (start.bucket typeName operation arity))
    (history : Evolves start made finish) {typeName : String}
    (discovered : start.discovery.contains typeName) (operation : Option String) (arity : Nat) :
    finish.bucket typeName operation arity =
        ranked start.catalog.hierarchy typeName operation arity (earlier ++ made) ↔
      start.bucket typeName operation arity =
        ranked start.catalog.hierarchy typeName operation arity earlier := by
  rw [ranked_append, bucket_later settled history discovered]
  constructor
  · intro same
    refine eq_of_adoptAll_eq (distinct _ _ _) (distinct_ranked ..) ?_ ?_ same
    · intro handle member
      -- the whole bucket is in the order of registration, so the handle has a place in it
      have concerned : concerns start.catalog.hierarchy typeName operation arity handle := by
        rcases mem_of_adoptAll_eq same member with first | last
        · exact (mem_of_mem_ranked first).2
        · exact (List.mem_filter.1 last).2
      have listed := (settled.filed member).1
      exact covered_adoptAll (List.mem_filter.2 ⟨listed, concerned⟩)
    · intro handle member
      obtain ⟨listed, concerned⟩ := mem_of_mem_ranked member
      exact settled.reaches discovered listed concerned
  · intro same
    rw [same]

/-- A new type begins with what it inherits. -/
theorem bucket_discover_new {registry : Registry} {made : List Handle}
    (settled : registry.Settled made) {typeName : String}
    (unknown : ¬ registry.discovery.contains typeName) (operation : Option String)
    (arity : Nat) :
    (registry.discover typeName).bucket typeName operation arity =
      adoptAll [] (registry.inheritedInto typeName operation arity) := by
  have empty : registry.bucket typeName operation arity = [] := by
    refine List.eq_nil_iff_forall_not_mem.2 fun handle member => ?_
    exact unknown (settled.filed member).2
  rw [bucket_discover_self unknown, empty]

/-- No discovered supertype of a type but the source holds virtual handles for a bucket. -/
def SoleSource (registry : Registry) (typeName : String) (operation : Option String) (arity : Nat)
    (source : String) : Prop :=
  ∀ supertype, registry.discovery.contains supertype →
    registry.catalog.hierarchy.isAssignable typeName supertype → supertype ≠ typeName →
    ∀ handle ∈ registry.bucket supertype operation arity, handle.kind = .virtual →
      supertype = source

/-- At most one other discovered supertype of a type holds virtual handles for a bucket. -/
def OneSource (registry : Registry) (typeName : String) (operation : Option String)
    (arity : Nat) : Prop :=
  ∃ source, registry.SoleSource typeName operation arity source

theorem OneSource.earlier {registry later : Registry} {earlier made : List Handle}
    (settled : registry.Settled earlier) (history : Evolves registry made later)
    {typeName : String} {operation : Option String} {arity : Nat}
    (oneSource : later.OneSource typeName operation arity) :
    registry.OneSource typeName operation arity := by
  obtain ⟨source, only⟩ := oneSource
  refine ⟨source, fun supertype discovered assignable different handle member virtual => ?_⟩
  refine only supertype (history.discovered discovered) ?_ different handle ?_ virtual
  · rw [history.catalog_eq]
    exact assignable
  · rw [bucket_later settled history discovered]
    exact (prefix_adoptAll _ _).subset member

section New

variable {registry : Registry} {made : List Handle} {typeName source : String}
  {operation : Option String} {arity : Nat} (settled : registry.Settled made)
  (unknown : ¬ registry.discovery.contains typeName)
  (sole : registry.SoleSource typeName operation arity source)

include unknown sole

theorem eq_source {supertype : String} (discovered : registry.discovery.contains supertype)
    (assignable : registry.catalog.hierarchy.isAssignable typeName supertype) {handle : Handle}
    (member : handle ∈ registry.bucket supertype operation arity)
    (virtual : handle.kind = .virtual) : supertype = source := by
  refine sole supertype discovered assignable ?_ handle member virtual
  rintro rfl
  exact unknown discovered

include settled

theorem inheritedInto_eq_of_source (discovered : registry.discovery.contains source)
    (assignable : registry.catalog.hierarchy.isAssignable typeName source) :
    registry.inheritedInto typeName operation arity =
      (registry.bucket source operation arity).filter (·.kind = .virtual) := by
  have listed {supertype : String} : supertype ∈ registry.sources typeName operation ↔ _ :=
    mem_sources_iff settled.linked unknown
  refine flatMap_eq_of_only (registry.nodup_sources typeName operation) ?_ ?_
  · intro supertype held different
    obtain ⟨-, here, below, -⟩ := listed.1 held
    refine List.filter_eq_nil_iff.2 fun handle member virtual => ?_
    exact different (eq_source unknown sole here below member (by simpa using virtual))
  · intro absent
    refine List.filter_eq_nil_iff.2 fun handle member virtual => absent ?_
    have named := settled.named_of_mem_bucket member (by simpa using virtual)
    exact listed.2 ⟨named, discovered, assignable, handle, (List.mem_filter.1 member).1⟩

/-- The handles with a place under the new type are the virtual ones with a place under the
source. -/
theorem filter_concerns_of_source (rooted : registry.catalog.hierarchy.Rooted)
    (assignable : registry.catalog.hierarchy.isAssignable typeName source) :
    (made.filter (concerns registry.catalog.hierarchy source operation arity)).filter
        (fun handle => decide (handle.kind = .virtual)) =
      made.filter (concerns registry.catalog.hierarchy typeName operation arity) := by
  rw [List.filter_filter]
  refine List.filter_congr fun handle member => ?_
  rw [Bool.eq_iff_iff, Bool.and_eq_true, decide_eq_true_eq]
  constructor
  · rintro ⟨virtual, concerned⟩
    obtain ⟨belonging, place⟩ := concerns_iff.1 concerned
    refine concerns_iff.2 ⟨belonging, .inr ⟨virtual, ?_⟩⟩
    rcases place with rfl | ⟨-, below⟩
    · exact assignable
    · exact rooted.isAssignable_trans assignable below
  · intro concerned
    obtain ⟨virtual, below, cover, held, coverVirtual, -⟩ :=
      settled.above_new unknown member concerned
    have same := eq_source unknown sole (settled.known handle member) below held coverVirtual
    exact ⟨virtual, concerns_iff.2 ⟨(concerns_iff.1 concerned).1, .inl same⟩⟩

theorem inherits_nothing (apart : ¬ (registry.discovery.contains source ∧
      registry.catalog.hierarchy.isAssignable typeName source)) :
    registry.inheritedInto typeName operation arity = [] ∧
      made.filter (concerns registry.catalog.hierarchy typeName operation arity) = [] := by
  constructor
  · refine List.eq_nil_iff_forall_not_mem.2 fun handle member => apart ?_
    obtain ⟨-, supertype, here, below, held, virtual⟩ :=
      (mem_inheritedInto_iff settled.linked unknown).1 member
    rw [← eq_source unknown sole here below held virtual]
    exact ⟨here, below⟩
  · refine List.filter_eq_nil_iff.2 fun handle member concerned => apart ?_
    obtain ⟨-, below, cover, held, virtual, -⟩ := settled.above_new unknown member concerned
    have here := settled.known handle member
    rw [← eq_source unknown sole here below held virtual]
    exact ⟨here, below⟩

end New

theorem filter_virtual_ranked (hierarchy : Hierarchy) (typeName : String)
    (operation : Option String) (arity : Nat) (made : List Handle) :
    (ranked hierarchy typeName operation arity made).filter
        (fun handle => decide (handle.kind = .virtual)) =
      adoptAll [] ((made.filter (concerns hierarchy typeName operation arity)).filter
        fun handle => decide (handle.kind = .virtual)) := by
  refine filter_adoptAll fun handle member other listed same => ?_
  have first := concerns_iff.1 (List.mem_filter.1 member).2
  have second := concerns_iff.1 (List.mem_filter.1 listed).2
  have arities : other.arity = handle.arity := by
    rw [(belongs_iff.1 first.1).2, (belongs_iff.1 second.1).2]
  exact decide_eq_decide.2 (virtual_iff_of_sameParams arities same)

/-- A type that inherits from one supertype only takes over the order there. -/
theorem bucket_discover_oneSource {registry : Registry} {made : List Handle}
    (settled : registry.Settled made) (rooted : registry.catalog.hierarchy.Rooted)
    {typeName : String} (unknown : ¬ registry.discovery.contains typeName)
    {operation : Option String} {arity : Nat}
    (oneSource : registry.OneSource typeName operation arity)
    (ordered : ∀ other, registry.discovery.contains other →
      registry.OneSource other operation arity →
        registry.bucket other operation arity =
          ranked registry.catalog.hierarchy other operation arity made) :
    (registry.discover typeName).bucket typeName operation arity =
      ranked registry.catalog.hierarchy typeName operation arity made := by
  obtain ⟨source, sole⟩ := oneSource
  rw [bucket_discover_new settled unknown]
  by_cases above : registry.discovery.contains source ∧
      registry.catalog.hierarchy.isAssignable typeName source
  · obtain ⟨discovered, assignable⟩ := above
    -- what lies above the source lies above the new type, so the source has no other source
    have sourceOrder := ordered source discovered ⟨source, fun supertype here below _ _ member =>
      eq_source unknown sole here (rooted.isAssignable_trans assignable below) member⟩
    rw [inheritedInto_eq_of_source settled unknown sole discovered assignable, sourceOrder,
      filter_virtual_ranked, filter_concerns_of_source settled unknown sole rooted assignable]
    exact @Distinct.adoptAll_eq_append [] _ (distinct_nil.adoptAll _)
  · obtain ⟨nothing, noPlace⟩ := inherits_nothing settled unknown sole above
    rw [nothing, ranked, noPlace]

theorem bucket_eq_ranked_of_oneSource {catalog : Catalog} {packages : List String}
    {order : TableOrder} {made : List Handle} {registry : Registry}
    (history : Evolves (fresh catalog packages order) made registry)
    (rooted : catalog.hierarchy.Rooted) {operation : Option String} {arity : Nat}
    (typeName : String) (discovered : registry.discovery.contains typeName)
    (oneSource : registry.OneSource typeName operation arity) :
    registry.bucket typeName operation arity =
      ranked catalog.hierarchy typeName operation arity made := by
  induction history generalizing typeName with
  | refl => cases discovered
  | importing imports _ ih => exact ih typeName discovered oneSource
  | @discovering made registry other history ih =>
    have settled := (settled_fresh catalog packages order).later history
    have before := oneSource.earlier settled (.discovering other .refl)
    by_cases known : registry.discovery.contains other
    · rw [discover_of_contains known] at discovered ⊢
      exact ih typeName discovered before
    · by_cases same : other = typeName
      · subst same
        have same := bucket_discover_oneSource settled (by rw [history.catalog_eq]; exact rooted)
          known before (by rw [history.catalog_eq]; exact ih)
        rwa [history.catalog_eq] at same
      · rw [bucket_discover_of_ne same]
        refine ih typeName ?_ before
        rcases contains_discover.1 discovered with old | new
        · exact old
        · exact absurd new.symm same
  | @entering made registry handle history fits ih =>
    have settled := (settled_fresh catalog packages order).later history
    have step : Evolves registry ([] ++ [handle]) (registry.enter handle) :=
      .entering handle .refl fits
    have before := oneSource.earlier settled step
    rw [discovery_enter] at discovered
    rw [bucket_later settled step discovered, ih typeName discovered before, history.catalog_eq,
      ranked_append]
    rfl

/-! ## The moment of discovery -/

/-- The moment at which a type is discovered, within the steps from one registry to another. -/
structure Moment (start : Registry) (made : List Handle) (finish : Registry)
    (typeName : String) where
  /-- The registry that does not know the type yet. -/
  registry : Registry
  /-- The handles made until then. -/
  earlier : List Handle
  /-- The handles made since. -/
  later : List Handle
  /-- The type is not discovered before. -/
  unknown : ¬ registry.discovery.contains typeName
  /-- The steps until then. -/
  before : Evolves start earlier registry
  /-- The steps since the discovery. -/
  after : Evolves (registry.discover typeName) later finish
  /-- All made handles, in order. -/
  made_eq : made = earlier ++ later

theorem exists_moment {start finish : Registry} {made : List Handle} {typeName : String}
    (history : Evolves start made finish) (unknown : ¬ start.discovery.contains typeName)
    (discovered : finish.discovery.contains typeName) :
    Nonempty (Moment start made finish typeName) := by
  induction history with
  | refl => exact absurd discovered unknown
  | importing imports _ ih =>
    obtain ⟨moment⟩ := ih discovered
    exact ⟨{ moment with after := .importing imports moment.after }⟩
  | @discovering made registry other history ih =>
    by_cases known : registry.discovery.contains typeName
    · obtain ⟨moment⟩ := ih known
      exact ⟨{ moment with after := .discovering other moment.after }⟩
    · rcases contains_discover.1 discovered with old | rfl
      · exact absurd old known
      · exact ⟨⟨registry, made, [], known, history, .refl, (List.append_nil _).symm⟩⟩
  | @entering made registry handle history fits ih =>
    rw [discovery_enter] at discovered
    obtain ⟨moment⟩ := ih discovered
    refine ⟨⟨moment.registry, moment.earlier, moment.later ++ [handle], moment.unknown,
      moment.before, .entering handle moment.after fits, ?_⟩⟩
    rw [← List.append_assoc, ← moment.made_eq]

/-- After a run, a bucket stands in the order of registration. -/
def InOrder (catalog : Catalog) (packages : List String) (order : TableOrder)
    (actions : List Action) (typeName : String) (operation : Option String) (arity : Nat) : Prop :=
  ((fresh catalog packages order).run actions).bucket typeName operation arity =
    ranked catalog.hierarchy typeName operation arity ((fresh catalog packages order).made actions)

/-- Every discovered type had its moment of discovery, and a bucket stands in the order of
registration if and only if the handles did that its type inherited then, supertype by supertype as
the table visited them.  So it is with the handles of one supertype at most, whatever the table
does. -/
theorem inOrder_iff_inherited (catalog : Catalog) (packages : List String) (order : TableOrder)
    (actions : List Action) (typeName : String)
    (discovered : ((fresh catalog packages order).run actions).discovery.contains typeName)
    (operation : Option String) (arity : Nat) :
    Nonempty (Moment (fresh catalog packages order) ((fresh catalog packages order).made actions)
        ((fresh catalog packages order).run actions) typeName) ∧
      ∀ moment : Moment (fresh catalog packages order) ((fresh catalog packages order).made actions)
          ((fresh catalog packages order).run actions) typeName,
        moment.registry.order = order ∧
        (InOrder catalog packages order actions typeName operation arity ↔
          adoptAll [] (moment.registry.inheritedInto typeName operation arity) =
            ranked catalog.hierarchy typeName operation arity moment.earlier) ∧
        (catalog.hierarchy.Rooted → moment.registry.OneSource typeName operation arity →
          InOrder catalog packages order actions typeName operation arity) := by
  have unknown : ¬ (fresh catalog packages order).discovery.contains typeName := by
    simp [fresh, Discovery.contains, Discovery.names]
  refine ⟨exists_moment (evolves_run _ actions) unknown discovered, fun moment => ?_⟩
  have settled : moment.registry.Settled moment.earlier :=
    (settled_fresh catalog packages order).later moment.before
  have reached : Evolves (fresh catalog packages order) moment.earlier
      (moment.registry.discover typeName) := .discovering typeName moment.before
  have distinct := distinct_bucket reached fun _ _ _ => distinct_nil
  have found : (moment.registry.discover typeName).discovery.contains typeName :=
    contains_discover.2 (.inr rfl)
  have sameCatalog : moment.registry.catalog = catalog := moment.before.catalog_eq
  have decided := bucket_eq_ranked_iff (settled.discovering typeName) distinct moment.after found
    operation arity
  rw [catalog_discover, sameCatalog, bucket_discover_new settled moment.unknown,
    ← moment.made_eq] at decided
  refine ⟨moment.before.order_eq, decided, fun rooted oneSource => decided.2 ?_⟩
  have rootedThere : moment.registry.catalog.hierarchy.Rooted := by
    rw [sameCatalog]
    exact rooted
  have ordered := bucket_discover_oneSource settled rootedThere moment.unknown oneSource <| by
    rw [sameCatalog]
    exact bucket_eq_ranked_of_oneSource moment.before rooted
  rwa [bucket_discover_new settled moment.unknown, sameCatalog] at ordered

/-! ## A late duck -/

/-- A registration of a move that the small host offers. -/
structure Move where
  /-- The type that moves. -/
  typeName : String
  /-- The written parameters. -/
  params : String
  /-- The only parameter. -/
  param : TypeRef
  /-- The type is declared. -/
  declared : pond.hierarchy.contains typeName
  /-- The parameters name no class. -/
  parsed : ∀ registry, (Signature.parse resolver params).run.run registry =
    (.ok ⟨[param], false, none⟩, registry)
  /-- The member is there. -/
  offered : pond.findInstance? typeName "move" ⟨[param], false, none⟩ =
    some (idle .method param false)

/-- The registration itself. -/
def Move.action (move : Move) : Action :=
  .register .virtual move.typeName (some "move") move.params none

/-- The handle that a registration makes. -/
def Move.handle (move : Move) : Handle :=
  ⟨move.typeName, some "move", .virtual, ⟨[move.param], false, none⟩,
    ⟨[move.param], false, none⟩, (idle .method move.param false).run⟩

/-- The registry with a move. -/
def Move.enterInto (registry : Registry) (move : Move) : Registry :=
  (registry.discover move.typeName).enter move.handle

theorem Move.register_run (move : Move) {registry : Registry} (unimported : registry.imports = {})
    (offers : registry.catalog = pond) :
    registry.made? move.action = some move.handle ∧
      registry.apply move.action = move.enterInto registry := by
  have found : registry.lookupType? move.typeName = some move.typeName := by
    refine lookupType?_of_contains unimported ?_
    rw [offers]
    exact move.declared
  refine Registry.register_run (makeHandle_run found move.parsed ?_)
  rw [offers]
  exact move.offered

theorem run_moves (moves : List Move) {registry : Registry} (unimported : registry.imports = {})
    (offers : registry.catalog = pond) :
    registry.made (moves.map Move.action) = moves.map Move.handle ∧
      registry.run (moves.map Move.action) = moves.foldl Move.enterInto registry := by
  induction moves generalizing registry with
  | nil => exact ⟨rfl, rfl⟩
  | cons move moves ih =>
    obtain ⟨making, entering⟩ := move.register_run unimported offers
    obtain ⟨made, reached⟩ := @ih (move.enterInto registry)
      (by rw [Move.enterInto, imports_enter, imports_discover, unimported])
      (by rw [Move.enterInto, catalog_enter, catalog_discover, offers])
    constructor
    · rw [List.map_cons, List.map_cons, Registry.made, making, entering, made]
      rfl
    · rw [List.map_cons, List.foldl_cons, ← reached, ← entering]
      rfl

/-- Swimmers move by a number. -/
def swim : Move :=
  ⟨"Swimmer", "(int)", .primitive (.numeric (.whole .int)), by decide, fun _ => rfl, rfl⟩

/-- Flyers move by a truth value. -/
def fly : Move := ⟨"Flyer", "(boolean)", .primitive .boolean, by decide, fun _ => rfl, rfl⟩

/-- Swimmers move by a character. -/
def dive : Move := ⟨"Swimmer", "(char)", .primitive .char, by decide, fun _ => rfl, rfl⟩

/-- Moves of swimmers and flyers by turns. -/
def turns : List Move := [swim, fly, dive]

/-- Registrations by turns before the discovery of ducks. -/
def lateDuck : List Action := turns.map Move.action ++ [.resolveType "Duck"]

theorem ancestors_pond :
    pond.hierarchy.ancestors "Duck" = ["Swimmer", "Flyer", TypeName.object] ∧
      pond.hierarchy.ancestors "Swimmer" = [TypeName.object] ∧
      pond.hierarchy.ancestors "Flyer" = [TypeName.object] := by
  have root : pond.hierarchy.supertypes TypeName.object = [] := rfl
  have swimmer : pond.hierarchy.supertypes "Swimmer" = [TypeName.object] := rfl
  have flyer : pond.hierarchy.supertypes "Flyer" = [TypeName.object] := rfl
  have duck : pond.hierarchy.supertypes "Duck" = ["Swimmer", "Flyer"] := rfl
  rw [TypeName.object] at *
  refine ⟨?_, ?_, ?_⟩
  · simp [Hierarchy.ancestors, Hierarchy.search, root, swimmer, flyer, duck]
  · simp [Hierarchy.ancestors, Hierarchy.search, root, swimmer]
  · simp [Hierarchy.ancestors, Hierarchy.search, root, flyer]

/-- Ducks are swimmers and flyers, and nothing else of the pond is another. -/
theorem assignable_pond :
    (pond.hierarchy.isAssignable "Duck" "Swimmer" ∧ pond.hierarchy.isAssignable "Duck" "Flyer") ∧
      (pond.hierarchy.isAssignable "Swimmer" "Flyer" = false ∧
        pond.hierarchy.isAssignable "Swimmer" "Duck" = false) ∧
      pond.hierarchy.isAssignable "Flyer" "Swimmer" = false ∧
        pond.hierarchy.isAssignable "Flyer" "Duck" = false := by
  obtain ⟨duck, swimmer, flyer⟩ := ancestors_pond
  simp [Hierarchy.isAssignable, duck, swimmer, flyer, TypeName.object]

theorem discover_flyer :
    Discovery.discover ⟨[⟨"Swimmer", []⟩]⟩ pond.hierarchy "Flyer" =
      ⟨[⟨"Swimmer", []⟩, ⟨"Flyer", []⟩]⟩ := by
  obtain ⟨-, swimmer, flyer⟩ := assignable_pond
  simp [Discovery.discover, Discovery.contains, Discovery.names, swimmer, flyer]

theorem discover_duck :
    Discovery.discover ⟨[⟨"Swimmer", []⟩, ⟨"Flyer", []⟩]⟩ pond.hierarchy "Duck" =
      ⟨[⟨"Swimmer", ["Duck"]⟩, ⟨"Flyer", ["Duck"]⟩, ⟨"Duck", []⟩]⟩ := by
  obtain ⟨duck, swimmer, flyer⟩ := assignable_pond
  simp [Discovery.discover, Discovery.contains, Discovery.names, duck, swimmer, flyer]

/-- A registry of the small host. -/
def pondWith (order : TableOrder) (types : List DiscoveredType) (filings : List Filing) :
    Registry :=
  { fresh pond [] order with discovery := ⟨types⟩, filings }

/-- The moves by turns, filed under swimmers and flyers. -/
def turnFilings : List Filing := turns.map fun move => ⟨move.typeName, move.handle⟩

section LateDuck

variable (order : TableOrder)

theorem learn_pondWith {types linked : List DiscoveredType} {typeName : String}
    (discovered : Discovery.discover ⟨types⟩ pond.hierarchy typeName = ⟨linked⟩)
    (filings : List Filing) :
    (pondWith order types filings).learn typeName = pondWith order linked filings := by
  change ({ fresh pond [] order with
    discovery := Discovery.discover ⟨types⟩ pond.hierarchy typeName, filings } : Registry) = _
  rw [discovered]
  rfl

/-- A move of a new type without discovered supertypes. -/
theorem enterInto_alone (move : Move) {types linked : List DiscoveredType}
    (unknown : ¬ Discovery.contains ⟨types⟩ move.typeName)
    (discovered : Discovery.discover ⟨types⟩ pond.hierarchy move.typeName = ⟨linked⟩)
    (alone : Discovery.supertypesOf ⟨linked⟩ move.typeName = []) (filings : List Filing) :
    move.enterInto (pondWith order types filings) =
      (pondWith order linked filings).enter move.handle := by
  have learnt := learn_pondWith order discovered filings
  rw [Move.enterInto, discover_of_alone unknown (by rw [learnt]; exact alone), learnt]

theorem enterInto_turns :
    turns.foldl Move.enterInto (fresh pond [] order) =
      pondWith order [⟨"Swimmer", []⟩, ⟨"Flyer", []⟩] turnFilings := by
  have swum : swim.enterInto (fresh pond [] order) =
      pondWith order [⟨"Swimmer", []⟩] (turnFilings.take 1) :=
    enterInto_alone order swim (by decide) rfl rfl []
  have flown : fly.enterInto (pondWith order [⟨"Swimmer", []⟩] (turnFilings.take 1)) =
      pondWith order [⟨"Swimmer", []⟩, ⟨"Flyer", []⟩] (turnFilings.take 2) :=
    enterInto_alone order fly (by decide) discover_flyer rfl (turnFilings.take 1)
  rw [turns, List.foldl_cons, List.foldl_cons, swum, flown]
  rfl

theorem run_lateDuck :
    (fresh pond [] order).made lateDuck = turns.map Move.handle ∧
      (fresh pond [] order).run lateDuck =
        (pondWith order [⟨"Swimmer", []⟩, ⟨"Flyer", []⟩] turnFilings).discover "Duck" := by
  obtain ⟨made, reached⟩ := @run_moves turns (fresh pond [] order) rfl rfl
  rw [enterInto_turns] at reached
  rw [lateDuck, made_append, run_append, made, reached]
  constructor
  · rfl
  · change ((resolveType "Duck").run.run _).2 = _
    rw [resolveType_run]
    rfl

theorem lateDuck_discovered :
    ((fresh pond [] order).run lateDuck).discovery.contains "Duck" := by
  rw [(run_lateDuck order).2]
  exact contains_discover.2 (.inr rfl)

/-- A late duck inherits from swimmers and flyers, whichever the table visits first. -/
theorem sources_lateDuck :
    let sources := (pondWith order [⟨"Swimmer", []⟩, ⟨"Flyer", []⟩] turnFilings).sources "Duck"
      (some "move")
    sources = ["Swimmer", "Flyer"] ∨ sources = ["Flyer", "Swimmer"] := by
  have keys : (pondWith order [⟨"Swimmer", []⟩, ⟨"Flyer", []⟩] turnFilings).keys =
      [⟨"Swimmer", some "move"⟩, ⟨"Flyer", some "move"⟩] := rfl
  have own : (pondWith order [⟨"Swimmer", []⟩, ⟨"Flyer", []⟩] turnFilings).order = order := rfl
  have visited := order.perm [⟨"Swimmer", some "move"⟩, ⟨"Flyer", some "move"⟩]
  dsimp only
  rw [sources, learn_pondWith order discover_duck, keys, own]
  rcases List.perm_pair.1 visited with swimmerFirst | flyerFirst
  · rw [swimmerFirst]
    exact .inl rfl
  · rw [flyerFirst]
    exact .inr rfl

/-- The late duck holds the moves of swimmers before those of flyers, or the other way round. -/
theorem bucket_lateDuck :
    let params := (((fresh pond [] order).run lateDuck).bucket "Duck" (some "move") 2).map
      (·.external.params)
    params =
        [[.primitive (.numeric (.whole .int))], [.primitive .char], [.primitive .boolean]] ∨
      params =
        [[.primitive .boolean], [.primitive (.numeric (.whole .int))], [.primitive .char]] := by
  dsimp only
  have unknown : ¬ Discovery.contains ⟨[⟨"Swimmer", []⟩, ⟨"Flyer", []⟩]⟩ "Duck" := by decide
  rw [(run_lateDuck order).2, bucket_discover_self unknown, inheritedInto]
  rcases sources_lateDuck order with swimmerFirst | flyerFirst
  · rw [swimmerFirst]
    exact .inl rfl
  · rw [flyerFirst]
    exact .inr rfl

/-- Of three moves by turns, the one in the middle is never tried between the others. -/
theorem lateDuck_params_ranked :
    (ranked pond.hierarchy "Duck" (some "move") 2 ((fresh pond [] order).made lateDuck)).map
        (·.external.params) =
      [[.primitive (.numeric (.whole .int))], [.primitive .boolean], [.primitive .char]] := by
  have placed : (turns.map Move.handle).filter (concerns pond.hierarchy "Duck" (some "move") 2) =
      turns.map Move.handle := by
    refine List.filter_eq_self.2 fun handle member => ?_
    simp only [turns, List.map_cons, List.map_nil, List.mem_cons, List.not_mem_nil,
      or_false] at member
    obtain ⟨aboveSwimmer, aboveFlyer⟩ := assignable_pond.1
    rcases member with rfl | rfl | rfl
    · exact concerns_iff.2 ⟨rfl, .inr ⟨rfl, aboveSwimmer⟩⟩
    · exact concerns_iff.2 ⟨rfl, .inr ⟨rfl, aboveFlyer⟩⟩
    · exact concerns_iff.2 ⟨rfl, .inr ⟨rfl, aboveSwimmer⟩⟩
  rw [(run_lateDuck order).1, ranked, placed]
  rfl

end LateDuck

/-- The order of the late duck's moves was decided at its discovery. -/
theorem inOrder_lateDuck_iff :
    ((fresh pond [] .ofEntry).run lateDuck).discovery.contains "Duck" ∧
      Nonempty (Moment (fresh pond [] .ofEntry) ((fresh pond [] .ofEntry).made lateDuck)
          ((fresh pond [] .ofEntry).run lateDuck) "Duck") ∧
        ∀ moment : Moment (fresh pond [] .ofEntry) ((fresh pond [] .ofEntry).made lateDuck)
            ((fresh pond [] .ofEntry).run lateDuck) "Duck",
          moment.registry.order = .ofEntry ∧
          (InOrder pond [] .ofEntry lateDuck "Duck" (some "move") 2 ↔
            adoptAll [] (moment.registry.inheritedInto "Duck" (some "move") 2) =
              ranked pond.hierarchy "Duck" (some "move") 2 moment.earlier) ∧
          (pond.hierarchy.Rooted → moment.registry.OneSource "Duck" (some "move") 2 →
            InOrder pond [] .ofEntry lateDuck "Duck" (some "move") 2) :=
  ⟨lateDuck_discovered .ofEntry,
    inOrder_iff_inherited pond [] .ofEntry lateDuck "Duck" (lateDuck_discovered .ofEntry)
      (some "move") 2⟩

/-- A duck that is discovered after its supertypes' moves does not try them by turns, in whatever
order the table visits the supertypes. -/
theorem lateDuck_not_inOrder :
    (∀ order, ((fresh pond [] order).run lateDuck).discovery.contains "Duck") ∧
      ¬ ∃ order, InOrder pond [] order lateDuck "Duck" (some "move") 2 := by
  refine ⟨lateDuck_discovered, ?_⟩
  rintro ⟨order, ordered⟩
  have turned := lateDuck_params_ranked order
  rw [← ordered] at turned
  rcases bucket_lateDuck order with swimmerFirst | flyerFirst
  · rw [swimmerFirst] at turned
    cases turned
  · rw [flyerFirst] at turned
    cases turned

end Registry

end Colloquy
