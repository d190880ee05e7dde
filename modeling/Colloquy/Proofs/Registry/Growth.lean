import Colloquy.Proofs.Registry.Grounding
import Colloquy.Proofs.Registry.Inheritance

/-!
# Growth of a registry

A registry only grows.  Whatever is done to it, and whether that succeeds or fails half-way, short
names keep their types, and further types and handles go to the end of what is there.
-/

namespace Colloquy

/-- A short name never changes its type. -/
theorem Imports.get?_insert {imports later : Imports} {qualified short found : String}
    (inserted : imports.insert qualified = .ok later) (named : imports.get? short = some found) :
    later.get? short = some found := by
  rw [get?_after_insert inserted]
  split
  · rename_i here
    -- the import succeeds under a bound name only if it imports the same type
    rw [insert, ← here, named] at inserted
    dsimp only at inserted
    split at inserted
    · rename_i same
      rw [same]
    · cases inserted
  · exact named

theorem Discovery.prefix_discover (discovery : Discovery) (hierarchy : Hierarchy) (name : String) :
    discovery.names <+: (discovery.discover hierarchy name).names := by
  by_cases known : discovery.contains name
  · simp [discover, known]
  · rw [names_discover known]
    exact List.prefix_append _ _

namespace Registry

open Handle

/-- What a registry knows, a later one knows in the same places. -/
structure Grows (before after : Registry) : Prop where
  /-- A short name keeps its type. -/
  imported : ∀ {short qualified}, before.imports.get? short = some qualified →
    after.imports.get? short = some qualified
  /-- Further types are discovered after those that are known. -/
  discovered : before.discovery.names <+: after.discovery.names
  /-- Further handles are filed after those that are there. -/
  filed : ∀ typeName operation arity,
    before.bucket typeName operation arity <+: after.bucket typeName operation arity

namespace Grows

theorem refl (registry : Registry) : Grows registry registry :=
  ⟨id, List.prefix_rfl, fun _ _ _ => List.prefix_rfl⟩

theorem trans {before middle after : Registry} (first : Grows before middle)
    (second : Grows middle after) : Grows before after where
  imported named := second.imported (first.imported named)
  discovered := first.discovered.trans second.discovered
  filed typeName operation arity :=
    (first.filed typeName operation arity).trans (second.filed typeName operation arity)

/-- What is filed for a type and an operation stays filed. -/
theorem handles_ne_nil {before after : Registry} (grows : Grows before after) {typeName : String}
    {operation : Option String} (filled : before.handles typeName operation ≠ []) :
    after.handles typeName operation ≠ [] := by
  obtain ⟨handle, member⟩ := List.exists_mem_of_ne_nil _ filled
  have still := (grows.filed typeName operation handle.arity).subset (mem_handles_iff.1 member)
  exact List.ne_nil_of_mem (mem_handles_iff.2 still)

end Grows

theorem prefix_fileEach (registry : Registry) (filings : List Filing) (typeName : String)
    (operation : Option String) (arity : Nat) :
    registry.bucket typeName operation arity <+:
      (registry.fileEach filings).bucket typeName operation arity := by
  rw [bucket_fileEach]
  exact prefix_adoptAll _ _

/-- A discovery adds one type, and to its buckets what they inherit. -/
theorem grows_discover (registry : Registry) (typeName : String) :
    Grows registry (registry.discover typeName) where
  imported named := by
    rw [imports_discover]
    exact named
  discovered := by
    rw [discovery_discover]
    exact registry.discovery.prefix_discover _ _
  filed place operation arity := by
    by_cases known : registry.discovery.contains typeName
    · simp [discover_of_contains known]
    · rw [discover_eq known]
      exact (registry.learn typeName).prefix_fileEach _ place operation arity

theorem grows_enter (registry : Registry) (handle : Handle) :
    Grows registry (registry.enter handle) where
  imported named := by
    rw [imports_enter]
    exact named
  discovered := by
    simp [discovery_enter]
  filed := registry.prefix_fileEach _

theorem grows_imports {registry : Registry} {name : String} {imports : Imports}
    (inserted : registry.imports.insert name = .ok imports) :
    Grows registry { registry with imports } where
  imported := Imports.get?_insert inserted
  discovered := List.prefix_rfl
  filed _ _ _ := List.prefix_rfl

theorem keeps_grows_resolver (start : Registry) (name : String) :
    Keeps (Grows start) (resolver name) := by
  intro registry grows
  rw [resolver_run]
  cases registry.lookupType? name with
  | none => exact grows
  | some qualified => exact grows.trans (grows_discover registry qualified)

theorem keeps_grows_importType (start : Registry) (name : String) :
    Keeps (Grows start) (importType name).run :=
  keeps_importType fun _ _ grows _ inserted =>
    (grows.trans (grows_imports inserted)).trans (grows_discover _ name)

theorem keeps_grows_fileHandle (start : Registry) (handle : Handle) :
    Keeps (Grows start) (fileHandle handle).run := by
  intro registry grows
  rw [fileHandle_run]
  exact grows.trans (grows_enter registry handle)

/-- A registry grows by an action, whether it succeeds or fails. -/
theorem grows_apply (registry : Registry) (action : Action) :
    Grows registry (registry.apply action) :=
  keeps_apply (keeps_grows_resolver registry) (keeps_grows_importType registry)
    (keeps_grows_fileHandle registry) (.refl registry) action

theorem grows_run (registry : Registry) (actions : List Action) :
    Grows registry (registry.run actions) :=
  holds_run (fun middle action grows => grows.trans (grows_apply middle action)) (.refl registry)
    actions

/-- Imported types are discovered. -/
def ImportsDiscovered (registry : Registry) : Prop :=
  ∀ short qualified, registry.imports.get? short = some qualified →
    registry.discovery.contains qualified

theorem importsDiscovered_fresh (catalog : Catalog) (packages : List String) (order : TableOrder) :
    ImportsDiscovered (fresh catalog packages order) := by
  intro short qualified named
  cases named

theorem ImportsDiscovered.discovering {registry : Registry}
    (discovered : registry.ImportsDiscovered) (typeName : String) :
    (registry.discover typeName).ImportsDiscovered := by
  intro short qualified named
  rw [imports_discover] at named
  exact contains_discover.2 (.inl (discovered short qualified named))

theorem keeps_importsDiscovered_resolver (name : String) :
    Keeps ImportsDiscovered (resolver name) := by
  intro registry discovered
  rw [resolver_run]
  cases registry.lookupType? name with
  | none => exact discovered
  | some qualified => exact discovered.discovering qualified

/-- An import discovers the one type that it adds. -/
theorem keeps_importsDiscovered_importType (name : String) :
    Keeps ImportsDiscovered (importType name).run := by
  refine keeps_importType fun registry imports discovered _ inserted short qualified named => ?_
  rw [imports_discover] at named
  rcases Imports.get?_of_insert inserted named with before | rfl
  · exact contains_discover.2 (.inl (discovered short qualified before))
  · exact contains_discover.2 (.inr rfl)

theorem keeps_importsDiscovered_fileHandle (handle : Handle) :
    Keeps ImportsDiscovered (fileHandle handle).run := by
  intro registry discovered short qualified named
  rw [fileHandle_run] at named ⊢
  rw [imports_enter] at named
  rw [discovery_enter]
  exact discovered short qualified named

theorem importsDiscovered_run (catalog : Catalog) (packages : List String) (order : TableOrder)
    (actions : List Action) : ImportsDiscovered ((fresh catalog packages order).run actions) := by
  have step (registry : Registry) (action : Action) (discovered : registry.ImportsDiscovered) :
      (registry.apply action).ImportsDiscovered :=
    keeps_apply keeps_importsDiscovered_resolver keeps_importsDiscovered_importType
      keeps_importsDiscovered_fileHandle discovered action
  exact holds_run step (importsDiscovered_fresh catalog packages order) actions

/-- A discovered name refers to a discovered type: to itself, unless another type was imported under
it. -/
theorem lookupType?_discovered {registry : Registry} (grounded : registry.Grounded)
    (imported : registry.ImportsDiscovered) {typeName : String}
    (known : registry.discovery.contains typeName) :
    ∃ qualified, registry.lookupType? typeName = some qualified ∧
      registry.discovery.contains qualified := by
  rw [lookupType?]
  cases named : registry.imports.get? typeName with
  | some qualified => exact ⟨qualified, rfl, imported _ _ named⟩
  | none =>
    dsimp only
    rw [if_pos (grounded.discovered known)]
    exact ⟨typeName, rfl, known⟩

theorem importType_failed {registry : Registry} {name : String} {error : RuntimeError}
    (failed : ((importType name).run.run registry).1 = .error error) :
    registry.apply (.importType name) = registry := by
  rw [apply]
  rw [importType_run] at failed ⊢
  split at failed
  · rename_i declared
    rw [if_pos declared]
    cases inserted : registry.imports.insert name with
    | error other => rfl
    | ok imports =>
      rw [inserted] at failed
      cases failed
  · rename_i undeclared
    rw [if_neg undeclared]

/-- A call discovers the type that its name refers to, and does nothing else. -/
theorem apply_invoke_of_discovered {registry : Registry} {typeName qualified : String}
    (found : registry.lookupType? typeName = some qualified)
    (known : registry.discovery.contains qualified) (heap : Heap) (admits : HandleKind → Bool)
    (operation : Option String) (args : List Value) :
    registry.apply (.invoke heap admits typeName operation args) = registry := by
  rw [apply, invoke_registry, resolver_run, found]
  exact discover_of_contains known

/-- In every reachable registry an action, whether it succeeds or fails, lets the registry grow.  A
failing import changes nothing, nor does any call of a discovered type, be it discovered under the
name that the call gives or under the one that this refers to. -/
theorem grows_after_run (catalog : Catalog) (packages : List String) (order : TableOrder)
    (actions : List Action) :
    let registry := (fresh catalog packages order).run actions
    (∀ action, Grows registry (registry.apply action)) ∧
      (∀ name error, ((importType name).run.run registry).1 = .error error →
        registry.apply (.importType name) = registry) ∧
      ∀ heap admits typeName operation args,
        (registry.discovery.contains typeName ∨ ∃ qualified,
          registry.lookupType? typeName = some qualified ∧
            registry.discovery.contains qualified) →
          registry.apply (.invoke heap admits typeName operation args) = registry := by
  intro registry
  refine ⟨grows_apply registry, fun name error => importType_failed, ?_⟩
  intro heap admits typeName operation args discovered
  have refers : ∃ qualified, registry.lookupType? typeName = some qualified ∧
      registry.discovery.contains qualified := by
    rcases discovered with known | refers
    · have grounded := (grounded_fresh catalog packages order).run actions
      exact lookupType?_discovered grounded
        (importsDiscovered_run catalog packages order actions) known
    · exact refers
  obtain ⟨qualified, found, known⟩ := refers
  exact apply_invoke_of_discovered found known heap admits operation args

/-- After an import of ducks, swans cannot be imported, and a call of a duck changes nothing. -/
theorem grows_after_duck :
    let registry := (fresh pond [] .ofEntry).run [.importType "Duck"]
    ((importType "Swan").run.run registry).1 = .error (.unresolvableType "Swan") ∧
      registry.apply (.importType "Swan") = registry ∧ registry.discovery.contains "Duck" ∧
      registry.apply (.invoke .empty anyKind "Duck" none []) = registry ∧
      Grows registry (registry.apply (.register .constructor "Duck" none "()" none)) := by
  intro registry
  obtain ⟨grows, failed, called⟩ := grows_after_run pond [] .ofEntry [.importType "Duck"]
  have unknown : ((importType "Swan").run.run registry).1 = .error (.unresolvableType "Swan") := rfl
  have known : registry.discovery.contains "Duck" := by decide +kernel
  exact ⟨unknown, failed _ _ unknown, known, called _ _ _ _ _ (.inl known), grows _⟩

end Registry

end Colloquy
