import Colloquy.Proofs.Registry.Steps
import Colloquy.Proofs.Signature.Reading

/-!
# The history of a registry

A registry is worked on by imports, resolutions, registrations and calls, each of which may fail
half-way.  Whatever they do comes down to the steps of a registry, and a handle is entered by the
registration that makes it and by nothing else.
-/

namespace Colloquy.Registry

/-- The handle that a registration makes. -/
def makeHandle (kind : HandleKind) (typeName : String) (operation : Option String)
    (params : String) (narrowed : Option String) : Attempt Handle := do
  let qualified ← resolveType typeName
  let declared ← Signature.parse resolver params
  let some member := member? (← get).catalog kind qualified operation declared
    | throw (.noSuchMember qualified (operation.getD constructorLabel) declared.text)
  let external ← match narrowed with
    | some text => parseNarrowed declared text
    | none => pure declared
  return ⟨qualified, operation, kind, declared, external, member.run⟩

/-- A registration enters the handle that it makes. -/
theorem register_eq (kind : HandleKind) (typeName : String) (operation : Option String)
    (params : String) (narrowed : Option String) :
    register kind typeName operation params narrowed =
      makeHandle kind typeName operation params narrowed >>= fileHandle := by
  simp only [register, makeHandle, bind_assoc]
  congr 1
  funext qualified
  congr 1
  funext declared
  congr 1
  funext registry
  cases member? registry.catalog kind qualified operation declared with
  | none => rfl
  | some member => cases narrowed <;> simp

theorem fileHandle_run (handle : Handle) (registry : Registry) :
    ((fileHandle handle).run.run registry).2 = registry.enter handle := by
  simp only [enter, fileEach, List.foldl_map]
  rfl

variable {α : Type}

/-- A resolver discovers the type that it finds. -/
theorem resolver_run (name : String) (registry : Registry) :
    (resolver name).run registry =
      match registry.lookupType? name with
      | some qualified => (some qualified, registry.discover qualified)
      | none => (none, registry) := by
  cases found : registry.lookupType? name with
  | none =>
    simp only [resolver, StateT.run_bind, StateT.run_get, pure_bind, found]
    rfl
  | some qualified =>
    simp only [resolver, StateT.run_bind, StateT.run_get, pure_bind, found]
    rfl

section Compositional

variable {good : (α : Type) → StateM Registry α → Prop} (compositional : Compositional good)
  (resolving : ∀ name, good _ (resolver name))

include compositional resolving

theorem good_resolveType (name : String) : good _ (resolveType name).run := by
  rw [resolveType]
  refine compositional.run_bind (compositional.map (resolving name) Except.ok) fun found => ?_
  cases found with
  | none => exact compositional.pure _
  | some qualified => exact compositional.pure _

theorem good_parseNarrowed (declared : Signature) (text : String) :
    good _ (parseNarrowed declared text).run := by
  rw [parseNarrowed]
  refine compositional.run_bind (Signature.good_parse compositional resolving text)
    fun external => ?_
  split
  · exact compositional.pure _
  · exact compositional.pure _

/-- Of the registry that it works on, a registration reads the catalog only. -/
theorem good_makeHandle (reading : good _ (catalog <$> get)) (kind : HandleKind)
    (typeName : String) (operation : Option String) (params : String)
    (narrowed : Option String) :
    good _ (makeHandle kind typeName operation params narrowed).run := by
  rw [makeHandle]
  refine compositional.run_bind (good_resolveType compositional resolving typeName)
    fun qualified => ?_
  refine compositional.run_bind (Signature.good_parse compositional resolving params)
    fun declared => ?_
  change good _ ((catalog <$> get) >>= fun catalog => ExceptT.run (do
    let some member := member? catalog kind qualified operation declared
      | throw (.noSuchMember qualified (operation.getD constructorLabel) declared.text)
    let external ← match narrowed with
      | some text => parseNarrowed declared text
      | none => pure declared
    return ⟨qualified, operation, kind, declared, external, member.run⟩ : Attempt Handle))
  refine compositional.bind reading fun catalog => ?_
  cases member? catalog kind qualified operation declared with
  | none => exact compositional.pure _
  | some member =>
    cases narrowed with
    | none => exact compositional.pure _
    | some text =>
      exact compositional.run_bind (good_parseNarrowed compositional resolving declared text)
        fun _ => compositional.pure _

end Compositional

/-- The computation enters no handle, whatever it returns. -/
def Quiet (step : StateM Registry α) : Prop :=
  ∀ registry, Evolves registry [] (step.run registry).2

theorem quiet_of_keeps {step : StateM Registry α}
    (kept : ∀ start, Keeps (Evolves start []) step) : Quiet step :=
  fun registry => kept registry registry .refl

theorem keeps_evolves_resolver (start : Registry) (name : String) :
    Keeps (Evolves start []) (resolver name) := by
  intro registry history
  rw [resolver_run]
  cases registry.lookupType? name with
  | none => exact history
  | some qualified => exact .discovering qualified history

theorem quiet_resolver (name : String) : Quiet (resolver name) :=
  quiet_of_keeps fun start => keeps_evolves_resolver start name

theorem quiet_resolveType (name : String) : Quiet (resolveType name).run :=
  quiet_of_keeps fun start =>
    good_resolveType (compositional_keeps _) (keeps_evolves_resolver start) name

theorem quiet_parse (text : String) : Quiet (Signature.parse resolver text).run :=
  quiet_of_keeps fun start =>
    Signature.good_parse (compositional_keeps _) (keeps_evolves_resolver start) text

theorem quiet_parseNarrowed (declared : Signature) (text : String) :
    Quiet (parseNarrowed declared text).run :=
  quiet_of_keeps fun start =>
    good_parseNarrowed (compositional_keeps _) (keeps_evolves_resolver start) declared text

theorem quiet_makeHandle (kind : HandleKind) (typeName : String) (operation : Option String)
    (params : String) (narrowed : Option String) :
    Quiet (makeHandle kind typeName operation params narrowed).run :=
  quiet_of_keeps fun start =>
    good_makeHandle (compositional_keeps _) (keeps_evolves_resolver start) (fun _ kept => kept)
      kind typeName operation params narrowed

/-- An import discovers the type under the new imports, or changes nothing. -/
theorem importType_run (name : String) (registry : Registry) :
    (importType name).run.run registry =
      if registry.catalog.hierarchy.contains name then
        match registry.imports.insert name with
        | .ok imports => (.ok name, ({ registry with imports } : Registry).discover name)
        | .error error => (.error error, registry)
      else (.error (.unresolvableType name), registry) := by
  rw [importType, run_get_bind]
  by_cases declared : registry.catalog.hierarchy.contains name
  · rw [if_pos declared, if_pos declared]
    cases registry.imports.insert name with
    | error error => rfl
    | ok imports => rfl
  · rw [if_neg declared, if_neg declared]
    rfl

/-- An import keeps what is kept by an import that succeeds. -/
theorem keeps_importType {holds : Registry → Prop} {name : String}
    (importing : ∀ (registry : Registry) (imports : Imports), holds registry →
      registry.catalog.hierarchy.contains name → registry.imports.insert name = .ok imports →
        holds (({ registry with imports } : Registry).discover name)) :
    Keeps holds (importType name).run := by
  intro registry kept
  rw [importType_run]
  split
  · rename_i declared
    cases inserted : registry.imports.insert name with
    | error error => exact kept
    | ok imports => exact importing registry imports kept declared inserted
  · exact kept

theorem quiet_importType (name : String) : Quiet (importType name).run :=
  quiet_of_keeps fun _ => keeps_importType fun _ imports earlier _ _ =>
    .discovering name (.importing imports earlier)

theorem resolveType_run (name : String) (registry : Registry) :
    (resolveType name).run.run registry =
      match registry.lookupType? name with
      | some qualified => (.ok qualified, registry.discover qualified)
      | none => (.error (.unresolvableType name), registry) := by
  rw [resolveType]
  rw [ExceptT.run_bind, StateT.run_bind]
  change (StateT.run (Except.ok <$> resolver name) registry >>= _) = _
  rw [StateT.run_map, resolver_run]
  cases registry.lookupType? name with
  | none => rfl
  | some qualified => rfl

/-- What a registration makes stands for a member of the host. -/
theorem makeHandle_ok {kind : HandleKind} {typeName : String} {operation : Option String}
    {params : String} {narrowed : Option String} {registry after : Registry} {handle : Handle}
    (success : (makeHandle kind typeName operation params narrowed).run.run registry =
      (.ok handle, after)) : after.Fits handle := by
  obtain ⟨qualified, resolved, resolves, success⟩ := run_bind_ok success
  obtain ⟨declared, parsed, parses, success⟩ := run_bind_ok success
  rw [run_get_bind] at success
  have known : resolved.discovery.contains qualified := by
    rw [resolveType_run] at resolves
    cases found : registry.lookupType? typeName with
    | none =>
      rw [found] at resolves
      cases resolves
    | some name =>
      rw [found] at resolves
      cases resolves
      exact contains_discover.2 (.inr rfl)
  -- parsing may discover types but forgets none and keeps the catalog
  have parsing : Evolves resolved [] parsed := by
    have step := quiet_parse params resolved
    rwa [parses] at step
  cases found : member? parsed.catalog kind qualified operation declared with
  | none =>
    rw [found] at success
    cases success
  | some member =>
    rw [found] at success
    have fits (external : Signature) :
        parsed.Fits ⟨qualified, operation, kind, declared, external, member.run⟩ :=
      ⟨parsing.discovered known, member, found, rfl⟩
    cases narrowed with
    | none =>
      cases success
      exact fits declared
    | some text =>
      obtain ⟨external, narrow, narrows, returned⟩ := run_bind_ok success
      have narrowing : Evolves parsed [] narrow := by
        have step := quiet_parseNarrowed declared text parsed
        rwa [narrows] at step
      cases returned
      exact (fits external).later narrowing

theorem lookupType?_of_contains {registry : Registry} {name : String}
    (unimported : registry.imports = {}) (declared : registry.catalog.hierarchy.contains name) :
    registry.lookupType? name = some name := by
  rw [lookupType?, unimported]
  change (if registry.catalog.hierarchy.contains name then some name else _) = some name
  rw [if_pos declared]

/-- A registration that names known types only, and an offered member, makes its handle. -/
theorem makeHandle_run {registry : Registry} {kind : HandleKind} {typeName qualified : String}
    {operation : Option String} {params : String} {declared : Signature} {member : Member}
    (found : registry.lookupType? typeName = some qualified)
    (parsed : ∀ registry, (Signature.parse resolver params).run.run registry =
      (.ok declared, registry))
    (offered : member? registry.catalog kind qualified operation declared = some member) :
    (makeHandle kind typeName operation params none).run.run registry =
      (.ok ⟨qualified, operation, kind, declared, declared, member.run⟩,
        registry.discover qualified) := by
  rw [makeHandle]
  rw [ExceptT.run_bind, StateT.run_bind, resolveType_run, found]
  change StateT.run (ExceptT.run (Signature.parse resolver params >>= _))
    (registry.discover qualified) = _
  rw [ExceptT.run_bind, StateT.run_bind, parsed]
  change StateT.run (ExceptT.run (get >>= _)) (registry.discover qualified) = _
  rw [run_get_bind, catalog_discover, offered]
  rfl

/-- What is done to a registry. -/
inductive Action where
  | importType (name : String)
  | resolveType (name : String)
  | register (kind : HandleKind) (typeName : String) (operation : Option String)
      (params : String) (narrowed : Option String)
  | invoke (heap : Heap) (admits : HandleKind → Bool) (typeName : String)
      (operation : Option String) (args : List Value)

/-- The registry after an action, which may have failed. -/
def apply (registry : Registry) : Action → Registry
  | .importType name => ((importType name).run.run registry).2
  | .resolveType name => ((resolveType name).run.run registry).2
  | .register kind typeName operation params narrowed =>
    ((register kind typeName operation params narrowed).run.run registry).2
  | .invoke heap admits typeName operation args =>
    (registry.invoke heap admits typeName operation args).2

/-- The handle that an action makes, if it is a registration that succeeds. -/
def made? (registry : Registry) : Action → Option Handle
  | .register kind typeName operation params narrowed =>
    ((makeHandle kind typeName operation params narrowed).run.run registry).1.toOption
  | _ => none

/-- The registry after a run of actions. -/
def run (registry : Registry) (actions : List Action) : Registry :=
  actions.foldl apply registry

/-- The handles that the registrations of a run make, in the order of the registrations. -/
def made (registry : Registry) : List Action → List Handle
  | [] => []
  | action :: actions => (registry.made? action).toList ++ (registry.apply action).made actions

/-- A registry that nothing was done to. -/
def fresh (catalog : Catalog) (packages : List String) (order : TableOrder) : Registry :=
  { catalog, packages, order }

theorem run_append (registry : Registry) (before after : List Action) :
    registry.run (before ++ after) = (registry.run before).run after :=
  List.foldl_append ..

theorem made_append (registry : Registry) (before after : List Action) :
    registry.made (before ++ after) = registry.made before ++ (registry.run before).made after := by
  induction before generalizing registry with
  | nil => rfl
  | cons action before ih =>
    rw [List.cons_append, made, made, ih, List.append_assoc]
    rfl

/-- A call only resolves its type. -/
theorem invoke_registry (registry : Registry) (heap : Heap) (admits : HandleKind → Bool)
    (typeName : String) (operation : Option String) (args : List Value) :
    (registry.invoke heap admits typeName operation args).2 =
      ((resolver typeName).run registry).2 := by
  rw [invoke]
  rw [resolver_run]
  cases registry.lookupType? typeName with
  | none => rfl
  | some qualified =>
    dsimp only
    split
    · rfl
    · split
      split
      · rfl
      · rfl

theorem register_run {registry after : Registry} {kind : HandleKind} {typeName : String}
    {operation : Option String} {params : String} {narrowed : Option String} {handle : Handle}
    (success : (makeHandle kind typeName operation params narrowed).run.run registry =
      (.ok handle, after)) :
    registry.made? (.register kind typeName operation params narrowed) = some handle ∧
      registry.apply (.register kind typeName operation params narrowed) = after.enter handle := by
  constructor
  · rw [made?, success]
    rfl
  · rw [apply, register_eq, ExceptT.run_bind, StateT.run_bind, success]
    exact fileHandle_run handle after

/-- An action enters the handle that it makes, and no other. -/
theorem evolves_apply (registry : Registry) (action : Action) :
    Evolves registry (registry.made? action).toList (registry.apply action) := by
  cases action with
  | importType name => exact quiet_importType name registry
  | resolveType name => exact quiet_resolveType name registry
  | invoke heap admits typeName operation args =>
    rw [apply, invoke_registry]
    exact quiet_resolver typeName registry
  | register kind typeName operation params narrowed =>
    have quiet := quiet_makeHandle kind typeName operation params narrowed registry
    cases outcome : (makeHandle kind typeName operation params narrowed).run.run registry with
    | mk result after =>
      rw [outcome] at quiet
      cases result with
      | error error =>
        rw [apply, made?, register_eq, ExceptT.run_bind, StateT.run_bind, outcome]
        exact quiet
      | ok handle =>
        obtain ⟨making, entering⟩ := register_run outcome
        rw [making, entering]
        exact .entering handle quiet (makeHandle_ok outcome)

/-- An action keeps what resolving and filing keep, and importing if it is an import. -/
theorem keeps_apply_of_import {holds : Registry → Prop}
    (resolving : ∀ name, Keeps holds (resolver name))
    (filing : ∀ handle, Keeps holds (fileHandle handle).run) {registry : Registry}
    (kept : holds registry) (action : Action)
    (importing : ∀ name, action = .importType name → Keeps holds (importType name).run) :
    holds (registry.apply action) := by
  cases action with
  | importType name => exact importing name rfl registry kept
  | resolveType name =>
    exact good_resolveType (compositional_keeps holds) resolving name registry kept
  | register kind typeName operation params narrowed =>
    have making := good_makeHandle (compositional_keeps holds) resolving (fun _ kept => kept) kind
      typeName operation params narrowed
    rw [apply, register_eq]
    exact (compositional_keeps holds).run_bind making filing registry kept
  | invoke heap admits typeName operation args =>
    rw [apply, invoke_registry]
    exact resolving typeName registry kept

/-- An action keeps what resolving, importing and filing keep. -/
theorem keeps_apply {holds : Registry → Prop} (resolving : ∀ name, Keeps holds (resolver name))
    (importing : ∀ name, Keeps holds (importType name).run)
    (filing : ∀ handle, Keeps holds (fileHandle handle).run) {registry : Registry}
    (kept : holds registry) (action : Action) : holds (registry.apply action) :=
  keeps_apply_of_import resolving filing kept action fun name _ => importing name

/-- What each action keeps, a run keeps. -/
theorem holds_run {holds : Registry → Prop}
    (step : ∀ registry action, holds registry → holds (registry.apply action))
    {registry : Registry} (kept : holds registry) (actions : List Action) :
    holds (registry.run actions) := by
  induction actions generalizing registry with
  | nil => exact kept
  | cons action actions ih => exact ih (step registry action kept)

/-- A run enters the handles that its registrations make. -/
theorem evolves_run (registry : Registry) (actions : List Action) :
    Evolves registry (registry.made actions) (registry.run actions) := by
  induction actions generalizing registry with
  | nil => exact .refl
  | cons action actions ih => exact (evolves_apply registry action).trans (ih _)

end Colloquy.Registry
