import Colloquy.Proofs.Registry.Grounding
import Colloquy.Proofs.Registry.TrialOrder

/-!
# What a bucket holds

The representation of a registry.  Handles come into a bucket by registration, by propagation to a
subclass and by inheritance, and whichever it was, the handle fits its place: its type, its name,
its arity and its kind are those of the bucket, and its two parameter lists go together.
-/

namespace Colloquy

namespace Handle

/-- A handle that a registration makes: exactly the constructors have no name, and the arguments of
the external parameters are as many as the host function takes. -/
structure WellFormed (handle : Handle) : Prop where
  unnamed : handle.kind = .constructor ↔ handle.name = none
  paired : handle.external.arity = handle.declared.arity
  declared : Signature.Spread handle.declared.params handle.declared.variadic
  external : Signature.Spread handle.external.params handle.external.variadic

end Handle

open Handle

namespace Registry

theorem gives_parseNarrowed (declared : Signature) (text : String) :
    Gives (fun external => external.arity = declared.arity ∧
      Signature.Spread external.params external.variadic) (parseNarrowed declared text) := by
  rw [parseNarrowed]
  refine gives_bind (Signature.gives_parse _ _) fun external spread => ?_
  split
  · rename_i paired
    exact gives_pure ⟨paired, spread⟩
  · exact gives_throw _

theorem gives_makeHandle {kind : HandleKind} {operation : Option String}
    (unnamed : kind = .constructor ↔ operation = none) (typeName params : String)
    (narrowed : Option String) :
    Gives WellFormed (makeHandle kind typeName operation params narrowed) := by
  rw [makeHandle]
  refine gives_bind (gives_any _) fun qualified _ => ?_
  refine gives_bind (Signature.gives_parse _ _) fun declared spread => ?_
  refine gives_bind (gives_any _) fun registry _ => ?_
  cases member? registry.catalog kind qualified operation declared with
  | none => exact gives_throw _
  | some member =>
    cases narrowed with
    | none => exact gives_pure ⟨unnamed, rfl, spread, spread⟩
    | some text =>
      refine gives_bind (gives_parseNarrowed declared text) fun external narrow => ?_
      exact gives_pure ⟨unnamed, narrow.1, spread, narrow.2⟩

/-- What a user of a registry may ask of it.  Only a constructor is registered without the name of
an operation. -/
inductive Request where
  | importType (name : String)
  | resolveType (name : String)
  | registerConstructor (typeName params : String) (narrowed : Option String)
  | registerStatic (typeName operation params : String) (narrowed : Option String)
  | registerVirtual (typeName operation params : String) (narrowed : Option String)
  | invoke (heap : Heap) (typeName : String) (operation : Option String) (args : List Value)
  | invokeVirtual (heap : Heap) (typeName operation : String) (args : List Value)
  | invokeStatic (heap : Heap) (typeName operation : String) (args : List Value)

def Request.action : Request → Action
  | importType name => .importType name
  | resolveType name => .resolveType name
  | registerConstructor typeName params narrowed =>
    .register .constructor typeName none params narrowed
  | registerStatic typeName operation params narrowed =>
    .register .static typeName (some operation) params narrowed
  | registerVirtual typeName operation params narrowed =>
    .register .virtual typeName (some operation) params narrowed
  | invoke heap typeName operation args => .invoke heap anyKind typeName operation args
  | invokeVirtual heap typeName operation args =>
    .invoke heap virtualOnly typeName (some operation) args
  | invokeStatic heap typeName operation args =>
    .invoke heap staticOnly typeName (some operation) args

/-- The registry after requests, any of which may have failed. -/
def serve (registry : Registry) (requests : List Request) : Registry :=
  registry.run (requests.map Request.action)

theorem wellFormed_of_register {registry : Registry} {kind : HandleKind} {typeName : String}
    {operation : Option String} {params : String} {narrowed : Option String} {handle : Handle}
    (unnamed : kind = .constructor ↔ operation = none)
    (makes : registry.made? (.register kind typeName operation params narrowed) = some handle) :
    handle.WellFormed := by
  have gives := gives_makeHandle unnamed typeName params narrowed
  rw [made?] at makes
  cases outcome : (makeHandle kind typeName operation params narrowed).run.run registry with
  | mk result after =>
    rw [outcome] at makes
    cases result with
    | error error => cases makes
    | ok result =>
      cases makes
      exact gives registry after _ outcome

theorem wellFormed_of_request {registry : Registry} {request : Request} {handle : Handle}
    (makes : registry.made? request.action = some handle) : handle.WellFormed := by
  cases request with
  | registerConstructor => exact wellFormed_of_register (by simp) makes
  | registerStatic => exact wellFormed_of_register (by simp) makes
  | registerVirtual => exact wellFormed_of_register (by simp) makes
  | importType => cases makes
  | resolveType => cases makes
  | invoke => cases makes
  | invokeVirtual => cases makes
  | invokeStatic => cases makes

theorem wellFormed_of_made {registry : Registry} {requests : List Request} {handle : Handle}
    (made : handle ∈ registry.made (requests.map Request.action)) : handle.WellFormed := by
  induction requests generalizing registry with
  | nil => cases made
  | cons request requests ih =>
    rw [List.map_cons, Registry.made] at made
    rcases List.mem_append.1 made with now | later
    · exact wellFormed_of_request (Option.mem_toList.1 now)
    · exact ih later

/-- A handle that is not virtual is filed under its own type only. -/
theorem filed_at_home (catalog : Catalog) (packages : List String) (order : TableOrder)
    (actions : List Action) :
    ((fresh catalog packages order).run actions).FiledAs fun typeName handle =>
      handle.kind ≠ .virtual → handle.declaring = typeName := by
  refine filedAs_of_evolves (filedAs_fresh catalog packages order)
    (settled_fresh catalog packages order)
    (evolves_run _ actions) ?_ ?_
  · intro typeName supertype handle _ virtual _ plain
    exact absurd virtual plain
  · rintro typeName handle (same | ⟨virtual, -⟩) plain
    · exact same
    · exact absurd virtual plain

/-- A handle fits its place in a registry. -/
structure Placed (registry : Registry) (typeName : String) (operation : Option String)
    (arity : Nat) (handle : Handle) : Prop where
  arity_eq : handle.arity = arity
  name_eq : handle.name = operation
  constructor_iff : handle.kind = .constructor ↔ operation = none
  home : handle.kind ≠ .virtual → handle.declaring = typeName
  declared : registry.catalog.hierarchy.contains typeName
  discovered : registry.discovery.contains typeName
  paired : handle.declared.params.length = handle.external.params.length
  declaredSpread : Signature.Spread handle.declared.params handle.declared.variadic
  externalSpread : Signature.Spread handle.external.params handle.external.variadic

/-- The representation invariant of a registry. -/
structure Representation (registry : Registry) : Prop where
  /-- Every handle fits its place. -/
  placed : ∀ typeName operation arity, ∀ handle ∈ registry.bucket typeName operation arity,
    registry.Placed typeName operation arity handle
  /-- No two handles of a bucket have the same external parameters. -/
  distinct : ∀ typeName operation arity, Distinct (registry.bucket typeName operation arity)
  /-- What a registration makes is held back only by a handle of its own kind. -/
  suppressed : ∀ typeName handle, handle.WellFormed → registry.isFiled typeName handle →
    ∃ other ∈ registry.bucket typeName handle.name handle.arity,
      other.kind = handle.kind ∧ other.external.sameParams handle.external

/-- Two handles of one bucket with the same external parameters have the same kind: by the arity,
both are virtual or neither is, and by the name, both are constructors or neither is. -/
theorem Placed.kind_eq {registry : Registry} {typeName : String} {handle other : Handle}
    (placed : registry.Placed typeName handle.name handle.arity other)
    (wellFormed : handle.WellFormed) (same : other.external.sameParams handle.external) :
    other.kind = handle.kind := by
  have virtual := virtual_iff_of_sameParams placed.arity_eq same
  have constructor : other.kind = .constructor ↔ handle.kind = .constructor := by
    rw [placed.constructor_iff, wellFormed.unnamed]
  cases kind : handle.kind with
  | constructor => exact constructor.2 kind
  | virtual => exact virtual.2 kind
  | static =>
    cases otherKind : other.kind with
    | static => rfl
    | constructor => simp [otherKind, kind] at constructor
    | virtual => simp [otherKind, kind] at virtual

/-- Whatever is asked of a registry, and whether it fails or not, the handles fit their places. -/
theorem placed_serve {catalog : Catalog} {packages : List String} {order : TableOrder}
    {requests : List Request} {typeName : String} {operation : Option String} {arity : Nat}
    {handle : Handle}
    (member : handle ∈
      ((fresh catalog packages order).serve requests).bucket typeName operation arity) :
    ((fresh catalog packages order).serve requests).Placed typeName operation arity handle := by
  rw [serve] at member ⊢
  have settled := settled_run catalog packages order (requests.map Request.action)
  have grounded := (grounded_fresh catalog packages order).run (requests.map Request.action)
  have home := filed_at_home catalog packages order (requests.map Request.action)
  obtain ⟨made, discovered⟩ := settled.filed member
  obtain ⟨-, rfl, rfl⟩ := mem_bucket_iff.1 member
  have wellFormed := wellFormed_of_made made
  exact {
    arity_eq := rfl
    name_eq := rfl
    constructor_iff := wellFormed.unnamed
    home := home _ _ _ handle member
    declared := grounded.discovered discovered
    discovered := discovered
    paired := wellFormed.paired.symm
    declaredSpread := wellFormed.declared
    externalSpread := wellFormed.external }

/-- The representation invariant holds after any requests. -/
theorem representation_serve (catalog : Catalog) (packages : List String) (order : TableOrder)
    (requests : List Request) :
    Representation ((fresh catalog packages order).serve requests) where
  placed _ _ _ _ member := placed_serve member
  distinct := distinct_bucket (evolves_run _ _) fun _ _ _ => distinct_nil
  suppressed typeName handle wellFormed filed := by
    obtain ⟨other, member, same⟩ := isFiled_iff.1 filed
    exact ⟨other, member, (placed_serve member).kind_eq wellFormed same, same⟩

end Registry

end Colloquy
