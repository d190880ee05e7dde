import Colloquy.Proofs.Registry.History

/-!
# Declared types

A registry knows declared types only: a name that is imported or discovered is always one that the
catalog declares, since names are looked up among the imports and in the catalog and nowhere else.
-/

namespace Colloquy

namespace Imports

/-- An import binds the last segment of its name, and leaves all other short names alone. -/
theorem get?_after_insert {imports later : Imports} {qualified : String}
    (inserted : imports.insert qualified = .ok later) (short : String) :
    later.get? short =
      if short = shortName qualified then some qualified else imports.get? short := by
  rw [insert] at inserted
  split at inserted
  · rename_i existing bound
    split at inserted
    · rename_i same
      cases inserted
      split
      · rename_i here
        rw [here, bound, same]
      · rfl
    · cases inserted
  · cases inserted
    split
    · rename_i here
      rw [here, get?, Table.get?_put_self]
    · rename_i elsewhere
      rw [get?, Table.get?_put_of_ne elsewhere]
      rfl

theorem get?_of_insert {imports later : Imports} {qualified short found : String}
    (inserted : imports.insert qualified = .ok later) (named : later.get? short = some found) :
    imports.get? short = some found ∨ found = qualified := by
  rw [get?_after_insert inserted] at named
  split at named
  · exact .inr (Option.some.inj named).symm
  · exact .inl named

end Imports

namespace Registry

/-- The types that a registry knows are declared. -/
structure Grounded (registry : Registry) : Prop where
  /-- Short names refer to declared types. -/
  imported : ∀ {short qualified}, registry.imports.get? short = some qualified →
    registry.catalog.hierarchy.contains qualified
  /-- Declared types are discovered. -/
  discovered : ∀ {typeName}, registry.discovery.contains typeName →
    registry.catalog.hierarchy.contains typeName

theorem grounded_fresh (catalog : Catalog) (packages : List String) (order : TableOrder) :
    Grounded (fresh catalog packages order) where
  imported named := by cases named
  discovered known := by cases Discovery.contains_iff.1 known

/-- Whatever a name refers to is declared. -/
theorem Grounded.declared {registry : Registry} (grounded : registry.Grounded)
    {name qualified : String} (found : registry.lookupType? name = some qualified) :
    registry.catalog.hierarchy.contains qualified := by
  unfold lookupType? at found
  split at found
  · rename_i imported
    cases found
    exact grounded.imported imported
  · split at found
    · rename_i declared
      cases found
      exact declared
    · exact List.find?_some found

theorem Grounded.discovering {registry : Registry} (grounded : registry.Grounded)
    {typeName : String} (declared : registry.catalog.hierarchy.contains typeName) :
    (registry.discover typeName).Grounded where
  imported named := by
    rw [imports_discover] at named
    rw [catalog_discover]
    exact grounded.imported named
  discovered known := by
    rw [catalog_discover]
    rcases contains_discover.1 known with before | rfl
    · exact grounded.discovered before
    · exact declared

theorem Grounded.importing {registry : Registry} (grounded : registry.Grounded) {name : String}
    (declared : registry.catalog.hierarchy.contains name) {imports : Imports}
    (inserted : registry.imports.insert name = .ok imports) :
    ({ registry with imports } : Registry).Grounded where
  imported named := by
    rcases Imports.get?_of_insert inserted named with before | rfl
    · exact grounded.imported before
    · exact declared
  discovered known := grounded.discovered known

theorem Grounded.entering {registry : Registry} (grounded : registry.Grounded) (handle : Handle) :
    (registry.enter handle).Grounded where
  imported named := by
    rw [imports_enter] at named
    rw [catalog_enter]
    exact grounded.imported named
  discovered known := by
    rw [discovery_enter] at known
    rw [catalog_enter]
    exact grounded.discovered known

theorem keeps_grounded_resolver (name : String) : Keeps Grounded (resolver name) := by
  intro registry grounded
  rw [resolver_run]
  cases found : registry.lookupType? name with
  | none => exact grounded
  | some qualified => exact grounded.discovering (grounded.declared found)

theorem keeps_grounded_importType (name : String) : Keeps Grounded (importType name).run :=
  keeps_importType fun _ _ grounded declared inserted =>
    (grounded.importing declared inserted).discovering declared

theorem keeps_grounded_fileHandle (handle : Handle) : Keeps Grounded (fileHandle handle).run := by
  intro registry grounded
  rw [fileHandle_run]
  exact grounded.entering handle

/-- An action knows declared types only, whether it fails or not. -/
theorem Grounded.apply {registry : Registry} (grounded : registry.Grounded) (action : Action) :
    (registry.apply action).Grounded :=
  keeps_apply keeps_grounded_resolver keeps_grounded_importType keeps_grounded_fileHandle grounded
    action

theorem Grounded.run {registry : Registry} (grounded : registry.Grounded)
    (actions : List Action) : (registry.run actions).Grounded :=
  holds_run (fun _ action grounded => grounded.apply action) grounded actions

end Registry

end Colloquy
