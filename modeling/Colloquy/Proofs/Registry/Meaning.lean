import Colloquy.Proofs.Registry.Growth

/-!
# The meaning of names

What a written name refers to depends on the imports, and otherwise on the catalog and the packages,
which never change.  An import gives a new meaning to one name, the last segment of what it imports,
and the meaning that a name has by an import is final.
-/

namespace Colloquy.Registry

/-- The meaning of a name depends on its own import, the catalog and the packages. -/
theorem lookupType?_congr {registry other : Registry} {name : String}
    (imported : other.imports.get? name = registry.imports.get? name)
    (catalog : other.catalog = registry.catalog) (packages : other.packages = registry.packages) :
    other.lookupType? name = registry.lookupType? name := by
  rw [lookupType?, lookupType?, imported, catalog, packages]

/-- A registry comes after another one in which every name means the same. -/
structure Follows (before after : Registry) : Prop where
  /-- The catalog is the same. -/
  catalog : after.catalog = before.catalog
  /-- The imports are the same. -/
  imports : after.imports = before.imports
  /-- The packages are the same. -/
  packages : after.packages = before.packages
  /-- What was discovered is discovered. -/
  discovered : ∀ {typeName}, before.discovery.contains typeName →
    after.discovery.contains typeName

namespace Follows

theorem refl (registry : Registry) : Follows registry registry :=
  ⟨rfl, rfl, rfl, id⟩

theorem trans {before middle after : Registry} (first : Follows before middle)
    (second : Follows middle after) : Follows before after where
  catalog := second.catalog.trans first.catalog
  imports := second.imports.trans first.imports
  packages := second.packages.trans first.packages
  discovered known := second.discovered (first.discovered known)

theorem lookupType?_eq {before after : Registry} (follows : Follows before after)
    (name : String) : after.lookupType? name = before.lookupType? name :=
  lookupType?_congr (by rw [follows.imports]) follows.catalog follows.packages

end Follows

theorem follows_discover (registry : Registry) (typeName : String) :
    Follows registry (registry.discover typeName) where
  catalog := catalog_discover registry typeName
  imports := imports_discover registry typeName
  packages := by
    obtain ⟨filed, same⟩ := registry.discover_eq_learn typeName
    rw [same]
    rfl
  discovered known := contains_discover.2 (.inl known)

theorem follows_enter (registry : Registry) (handle : Handle) :
    Follows registry (registry.enter handle) where
  catalog := catalog_enter registry handle
  imports := imports_enter registry handle
  packages := by
    obtain ⟨filed, same⟩ := registry.fileEach_eq ((registry.places handle).map (⟨·, handle⟩))
    rw [enter, same]
  discovered known := by
    rw [discovery_enter]
    exact known

theorem keeps_follows_resolver (start : Registry) (name : String) :
    Keeps (Follows start) (resolver name) := by
  intro registry follows
  rw [resolver_run]
  cases registry.lookupType? name with
  | none => exact follows
  | some qualified => exact follows.trans (follows_discover registry qualified)

theorem keeps_follows_fileHandle (start : Registry) (handle : Handle) :
    Keeps (Follows start) (fileHandle handle).run := by
  intro registry follows
  rw [fileHandle_run]
  exact follows.trans (follows_enter registry handle)

/-- Whatever is not an import leaves the meaning of all names alone. -/
theorem follows_apply (registry : Registry) {action : Action}
    (other : ∀ name, action ≠ .importType name) : Follows registry (registry.apply action) :=
  keeps_apply_of_import (keeps_follows_resolver registry) (keeps_follows_fileHandle registry)
    (.refl registry) action fun name same => absurd same (other name)

/-- A successful import discovers its type under imports that know it. -/
theorem importType_ok {registry : Registry} {name qualified : String}
    (success : ((importType name).run.run registry).1 = .ok qualified) :
    qualified = name ∧ ∃ imports, registry.imports.insert name = .ok imports ∧
      registry.apply (.importType name) =
        ({ registry with imports } : Registry).discover name := by
  rw [apply]
  rw [importType_run] at success ⊢
  split at success
  · rename_i declared
    rw [if_pos declared]
    cases inserted : registry.imports.insert name with
    | error error =>
      rw [inserted] at success
      cases success
    | ok imports =>
      rw [inserted] at success
      cases success
      exact ⟨rfl, imports, rfl, rfl⟩
  · cases success

/-- The last segment of an imported name is the one name whose meaning the import changes. -/
theorem imports_importType {registry : Registry} {name qualified : String}
    (success : ((importType name).run.run registry).1 = .ok qualified) (short : String) :
    (registry.apply (.importType name)).imports.get? short =
      if short = shortName name then some name else registry.imports.get? short := by
  obtain ⟨-, imports, inserted, reached⟩ := importType_ok success
  rw [reached, imports_discover]
  exact Imports.get?_after_insert inserted short

theorem lookupType?_of_imported {registry : Registry} {name qualified : String}
    (imported : registry.imports.get? name = some qualified) :
    registry.lookupType? name = some qualified := by
  rw [lookupType?, imported]

/-- An import leaves all names alone, except the last segment of what it imports. -/
theorem lookupType?_importType (registry : Registry) {name other : String}
    (elsewhere : ∀ qualified, ((importType name).run.run registry).1 = .ok qualified →
      shortName qualified ≠ other) :
    (registry.apply (.importType name)).lookupType? other = registry.lookupType? other := by
  cases outcome : ((importType name).run.run registry).1 with
  | error error => rw [importType_failed outcome]
  | ok qualified =>
    obtain ⟨same, imports, inserted, reached⟩ := importType_ok outcome
    have different : other ≠ shortName name := by
      rw [← same]
      exact (elsewhere qualified outcome).symm
    have unbound := Imports.get?_after_insert inserted other
    rw [if_neg different] at unbound
    rw [reached, (follows_discover _ name).lookupType?_eq]
    exact lookupType?_congr unbound rfl rfl

/-- At some place of a run stands a successful import of a type. -/
def ImportsAt (registry : Registry) (actions : List Action) (index : Nat)
    (qualified : String) : Prop :=
  actions[index]? = some (.importType qualified) ∧
    ((importType qualified).run.run (registry.run (actions.take index))).1 = .ok qualified

/-- What a name refers to after so many actions of a run. -/
def meaning (registry : Registry) (actions : List Action) (name : String) (count : Nat) :
    Option String :=
  (registry.run (actions.take count)).lookupType? name

variable {registry : Registry} {actions : List Action}

theorem run_take_succ {index : Nat} {action : Action} (here : actions[index]? = some action) :
    registry.run (actions.take (index + 1)) =
      (registry.run (actions.take index)).apply action := by
  rw [List.take_add_one, here, run_append]
  rfl

/-- A step leaves a name alone unless it is a successful import with the name as its last
segment. -/
theorem meaning_succ {name : String} {index : Nat}
    (elsewhere : ∀ qualified, registry.ImportsAt actions index qualified →
      shortName qualified ≠ name) :
    registry.meaning actions name (index + 1) = registry.meaning actions name index := by
  rw [meaning, meaning]
  cases here : actions[index]? with
  | none =>
    rw [List.take_add_one, here]
    simp
  | some action =>
    rw [run_take_succ here]
    by_cases imports : ∃ other, action = .importType other
    · obtain ⟨other, rfl⟩ := imports
      refine lookupType?_importType _ fun qualified success => ?_
      obtain ⟨rfl, -⟩ := importType_ok success
      exact elsewhere qualified ⟨here, success⟩
    · exact (follows_apply _ fun other same => imports ⟨other, same⟩).lookupType?_eq name

/-- What was imported under a short name stays imported under it. -/
theorem imported_later {index : Nat} {qualified : String}
    (imports : registry.ImportsAt actions index qualified) {count : Nat} (later : index < count) :
    (registry.run (actions.take count)).imports.get? (shortName qualified) = some qualified := by
  obtain ⟨here, success⟩ := imports
  have bound : (registry.run (actions.take (index + 1))).imports.get? (shortName qualified) =
      some qualified := by
    rw [run_take_succ here, imports_importType success, if_pos rfl]
  have parts : actions.take count =
      actions.take (index + 1) ++ (actions.drop (index + 1)).take (count - (index + 1)) := by
    rw [← List.take_add]
    congr 1
    omega
  rw [parts, run_append]
  exact (grows_run _ _).imported bound

/-- Once a type was imported, its last segment refers to it for good. -/
theorem meaning_later {index : Nat} {qualified : String}
    (imports : registry.ImportsAt actions index qualified) {count : Nat} (later : index < count) :
    registry.meaning actions (shortName qualified) count = some qualified :=
  lookupType?_of_imported (imported_later imports later)

/-- A name changes its meaning at most once.  Only a successful import with the name as its last
segment changes it, in the whole run at most one step does, and from such an import on the name
refers to the imported type for good.  All other steps leave it alone, also imports that fail. -/
theorem meaning_run (registry : Registry) (actions : List Action) (name : String) :
    (∀ index, registry.meaning actions name (index + 1) ≠ registry.meaning actions name index →
        ∃ qualified, registry.ImportsAt actions index qualified ∧ shortName qualified = name) ∧
      (∀ first second,
        registry.meaning actions name (first + 1) ≠ registry.meaning actions name first →
          registry.meaning actions name (second + 1) ≠ registry.meaning actions name second →
            first = second) ∧
      ∀ index qualified, registry.ImportsAt actions index qualified → shortName qualified = name →
        ∀ count, index < count → registry.meaning actions name count = some qualified := by
  have changing (index : Nat)
      (change : registry.meaning actions name (index + 1) ≠ registry.meaning actions name index) :
      ∃ qualified, registry.ImportsAt actions index qualified ∧ shortName qualified = name :=
    Classical.byContradiction fun none =>
      change (meaning_succ fun qualified imports same => none ⟨qualified, imports, same⟩)
  -- behind an import nothing changes, so no change comes after another one
  have last (first second : Nat)
      (change : registry.meaning actions name (first + 1) ≠ registry.meaning actions name first)
      (later : first < second) :
      registry.meaning actions name (second + 1) = registry.meaning actions name second := by
    obtain ⟨qualified, imports, rfl⟩ := changing first change
    rw [meaning_later imports later, meaning_later imports (Nat.lt_succ_of_lt later)]
  refine ⟨changing, ?_, ?_⟩
  · intro first second firstChange secondChange
    rcases Nat.lt_trichotomy first second with before | same | behind
    · exact absurd (last first second firstChange before) secondChange
    · exact same
    · exact absurd (last second first secondChange behind) firstChange
  · rintro index qualified imports rfl count later
    exact meaning_later imports later

end Colloquy.Registry
