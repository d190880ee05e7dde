import Colloquy.Proofs.Registry.Meaning

/-!
# Repeated registrations

A registration that is made again changes nothing.  All names still mean the same and all types that
it asks for are discovered, so it comes to the same handle, or to the same error; and the handle is
filed already in each of its places.
-/

namespace Colloquy.Registry

open Handle

variable {α β : Type}

/-- A step that has nothing left to do once it was done: wherever names still mean what they meant
when it ended, it returns the same and changes nothing. -/
structure Settles (step : StateM Registry α) : Prop where
  /-- The step leaves the meaning of all names alone. -/
  follows : ∀ before, Follows before (step.run before).2
  /-- Done again, the step returns what it returned, and changes nothing. -/
  again : ∀ before later, Follows (step.run before).2 later →
    step.run later = ((step.run before).1, later)

theorem settles_pure (result : α) : Settles (pure result : StateM Registry α) where
  follows before := .refl before
  again _ _ _ := rfl

theorem settles_bind {step : StateM Registry α} {next : α → StateM Registry β}
    (first : Settles step) (second : ∀ result, Settles (next result)) :
    Settles (step >>= next) where
  follows before := by
    rw [StateT.run_bind]
    exact (first.follows before).trans ((second _).follows _)
  again before later follows := by
    rw [StateT.run_bind] at follows ⊢
    -- what the second step leaves comes after what the first one leaves
    have middle := ((second (step.run before).1).follows (step.run before).2).trans follows
    rw [first.again before later middle]
    exact (second _).again _ later follows

theorem compositional_settles : Compositional fun α => Settles (α := α) where
  pure := settles_pure
  bind := settles_bind

theorem settles_resolver (name : String) : Settles (resolver name) where
  follows before := keeps_follows_resolver before name before (.refl before)
  again before later follows := by
    rw [resolver_run] at follows ⊢
    rw [resolver_run]
    cases found : before.lookupType? name with
    | none =>
      rw [found] at follows
      rw [follows.lookupType?_eq, found]
    | some qualified =>
      rw [found] at follows
      have known := follows.discovered (contains_discover.2 (.inr rfl))
      rw [follows.lookupType?_eq, (follows_discover before qualified).lookupType?_eq, found]
      dsimp only
      rw [discover_of_contains known]

theorem settles_catalog : Settles (catalog <$> get) where
  follows before := .refl before
  again before later follows := by
    change (later.catalog, later) = (before.catalog, later)
    rw [follows.catalog]
    rfl

/-- To make a handle again is to find the same handle, or the same error. -/
theorem settles_makeHandle (kind : HandleKind) (typeName : String) (operation : Option String)
    (params : String) (narrowed : Option String) :
    Settles (makeHandle kind typeName operation params narrowed).run :=
  good_makeHandle compositional_settles settles_resolver settles_catalog kind typeName operation
    params narrowed

theorem file_of_isFiled {registry : Registry} {typeName : String} {handle : Handle}
    (filed : registry.isFiled typeName handle) : registry.file typeName handle = registry := by
  rw [file, if_pos filed]

theorem fileEach_of_isFiled {registry : Registry} {filings : List Filing}
    (filed : ∀ filing ∈ filings, registry.isFiled filing.typeName filing.handle) :
    registry.fileEach filings = registry := by
  induction filings with
  | nil => rfl
  | cons filing filings ih =>
    have first := file_of_isFiled (filed filing (List.mem_cons_self ..))
    rw [fileEach, List.foldl_cons, first]
    exact ih fun other member => filed other (List.mem_cons_of_mem _ member)

/-- A handle that was filed in several places is filed in each of them. -/
theorem isFiled_fileEach {filings : List Filing} {filing : Filing} (member : filing ∈ filings)
    (registry : Registry) :
    (registry.fileEach filings).isFiled filing.typeName filing.handle := by
  rw [isFiled_iff, bucket_fileEach]
  apply covered_adoptAll
  rw [bound]
  refine List.mem_filter.2 ⟨List.mem_map_of_mem (List.mem_filter.2 ⟨member, ?_⟩), ?_⟩
  · simp
  · exact belongs_iff.2 ⟨rfl, rfl⟩

/-- To file handles again changes nothing. -/
theorem fileEach_fileEach (registry : Registry) (filings : List Filing) :
    (registry.fileEach filings).fileEach filings = registry.fileEach filings :=
  fileEach_of_isFiled fun _ member => isFiled_fileEach member registry

theorem enter_enter (registry : Registry) (handle : Handle) :
    (registry.enter handle).enter handle = registry.enter handle := by
  have samePlaces : (registry.enter handle).places handle = registry.places handle := by
    rw [places, places, discovery_enter]
  rw [enter, samePlaces]
  exact fileEach_fileEach registry _

theorem isFiled_enter (registry : Registry) (handle : Handle) :
    (registry.enter handle).isFiled handle.declaring handle :=
  isFiled_fileEach (List.mem_map_of_mem (List.mem_cons_self ..)) registry

/-- A filed handle is new unless its external parameters are taken under its own type. -/
theorem fileHandle_result (handle : Handle) (registry : Registry) :
    (fileHandle handle).run.run registry =
      (.ok !registry.isFiled handle.declaring handle, registry.enter handle) := by
  rw [← fileHandle_run]
  rfl

theorem fileHandle_again (handle : Handle) (registry : Registry) :
    (fileHandle handle).run.run (registry.enter handle) = (.ok false, registry.enter handle) := by
  rw [fileHandle_result, enter_enter, isFiled_enter]
  rfl

/-- A registration ends with the error of the handle that it fails to make, or files the handle. -/
theorem register_result (kind : HandleKind) (typeName : String) (operation : Option String)
    (params : String) (narrowed : Option String) (registry : Registry) :
    (register kind typeName operation params narrowed).run.run registry =
      match (makeHandle kind typeName operation params narrowed).run.run registry with
      | (.error error, after) => (.error error, after)
      | (.ok handle, after) => (fileHandle handle).run.run after := by
  rw [register_eq, ExceptT.run_bind, StateT.run_bind]
  cases (makeHandle kind typeName operation params narrowed).run.run registry with
  | mk made after => cases made <;> rfl

/-- Registrations are idempotent.  To make a registration again right after it was made changes
nothing.  The second registration returns that its handle is not new if the first one succeeded,
whatever that returned, and fails with the same error if the first one failed. -/
theorem register_again (registry : Registry) (kind : HandleKind) (typeName : String)
    (operation : Option String) (params : String) (narrowed : Option String) :
    let call := (register kind typeName operation params narrowed).run.run
    call (call registry).2 = ((call registry).1.map fun _ => false, (call registry).2) := by
  intro call
  have settles := settles_makeHandle kind typeName operation params narrowed
  have first : call registry = _ := register_result kind typeName operation params narrowed registry
  cases made : (makeHandle kind typeName operation params narrowed).run.run registry with
  | mk outcome after =>
    have again (later : Registry) (follows : Follows after later) :
        (makeHandle kind typeName operation params narrowed).run.run later = (outcome, later) := by
      have repeated := settles.again registry later
      rw [made] at repeated
      exact repeated follows
    rw [made] at first
    cases outcome with
    | error error =>
      dsimp only at first
      rw [first]
      refine (register_result ..).trans ?_
      rw [again after (.refl after)]
      rfl
    | ok handle =>
      dsimp only at first
      rw [first, fileHandle_result]
      refine (register_result ..).trans ?_
      rw [again (after.enter handle) (follows_enter after handle)]
      exact fileHandle_again handle after

end Colloquy.Registry
