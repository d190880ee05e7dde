import Colloquy.Proofs.Registry.Growth
import Colloquy.Proofs.Registry.Trial

/-!
# A call as a search

A call walks through the arities from the number of its arguments down to zero, and through the
handles of each in the order of their filing.  The first that accepts the arguments decides, and the
ways of failing tell apart an unknown type, a type that nothing was ever filed for, and handles that
all reject.
-/

namespace Colloquy.Registry

/-- No handle has an arity above the greatest one, so that the walk may start there. -/
theorem trialOrder_eq_flatMap (handles : List Handle) (limit : Nat) :
    trialOrder handles limit =
      (List.range (limit + 1)).reverse.flatMap fun arity => handles.filter (·.arity = arity) := by
  rw [trialOrder]
  rcases Nat.le_total limit (topArity handles) with low | high
  · rw [Nat.min_eq_left low]
  · have bare : ∀ arity, topArity handles < arity → handles.filter (·.arity = arity) = [] := by
      intro arity above
      refine List.filter_eq_nil_iff.2 fun handle member => ?_
      have top := arity_le_topArity member
      simp only [decide_eq_true_eq]
      omega
    have above : ((List.range (limit - topArity handles)).map
        (topArity handles + 1 + ·)).reverse.flatMap
          (fun arity => handles.filter (·.arity = arity)) = [] := by
      refine List.flatMap_eq_nil_iff.2 fun arity listed => ?_
      obtain ⟨extra, -, rfl⟩ := List.mem_map.1 (List.mem_reverse.1 listed)
      exact bare _ (by omega)
    have whole : limit + 1 = topArity handles + 1 + (limit - topArity handles) := by omega
    rw [Nat.min_eq_right high, whole, List.range_add (n := topArity handles + 1),
      List.reverse_append, List.flatMap_append, above, List.nil_append]

/-- The admitted candidates stand bucket by bucket, those of the greatest arity first. -/
theorem filter_candidates {registry : Registry} {typeName qualified : String}
    (found : registry.lookupType? typeName = some qualified) (admits : HandleKind → Bool)
    (operation : Option String) (limit : Nat) :
    ((registry.candidates typeName operation limit).filter fun handle => admits handle.kind) =
      (List.range (limit + 1)).reverse.flatMap fun arity =>
        (registry.bucket qualified operation arity).filter fun handle => admits handle.kind := by
  rw [candidates, found]
  dsimp only
  rw [trialOrder_eq_flatMap, List.filter_flatMap]
  rfl

/-- Handles reject the arguments one after another, each on the heap that the one before it
leaves. -/
inductive Rejects (catalog : Catalog) (args : List Value) : Heap → List Handle → Heap → Prop
  | nil (heap : Heap) : Rejects catalog args heap [] heap
  | cons {handle : Handle} {handles : List Handle} {heap middle after : Heap}
      {failure : InvokeFailure}
      (rejects : (handle.invoke catalog args).run.run heap = (.error failure, middle))
      (rest : Rejects catalog args middle handles after) :
      Rejects catalog args heap (handle :: handles) after

/-- A handle of the list accepts after those before it have rejected.  Those behind it have no part
in the result, nor in the heap that is left. -/
def FirstAccepts (catalog : Catalog) (args : List Value) (heap : Heap) (handles : List Handle)
    (result : Value) (after : Heap) : Prop :=
  ∃ earlier chosen later middle, handles = earlier ++ chosen :: later ∧
    Rejects catalog args heap earlier middle ∧
      (chosen.invoke catalog args).run.run middle = (.ok result, after)

variable {catalog : Catalog} {args : List Value}

theorem firstAccepted_run_cons (handle : Handle) (handles : List Handle) (heap : Heap) :
    (firstAccepted catalog args (handle :: handles)).run heap =
      match (handle.invoke catalog args).run.run heap with
      | (.ok result, after) => (some result, after)
      | (.error _, middle) => (firstAccepted catalog args handles).run middle := by
  rw [firstAccepted, StateT.run_bind]
  cases (handle.invoke catalog args).run.run heap with
  | mk ending after => cases ending <;> rfl

theorem not_firstAccepts_nil {heap after : Heap} {result : Value} :
    ¬ FirstAccepts catalog args heap [] result after := by
  rintro ⟨earlier, chosen, later, middle, split, -⟩
  exact absurd split (by simp)

/-- Either the first handle accepts, or it rejects and one behind it is the first to accept. -/
theorem firstAccepts_cons_iff {handle : Handle} {handles : List Handle} {heap after : Heap}
    {result : Value} :
    FirstAccepts catalog args heap (handle :: handles) result after ↔
      (handle.invoke catalog args).run.run heap = (.ok result, after) ∨
        ∃ failure middle, (handle.invoke catalog args).run.run heap = (.error failure, middle) ∧
          FirstAccepts catalog args middle handles result after := by
  constructor
  · rintro ⟨earlier, chosen, later, middle, split, rejects, accepts⟩
    cases rejects with
    | nil =>
      cases split
      exact .inl accepts
    | cons first rest =>
      cases split
      exact .inr ⟨_, _, first, _, chosen, later, middle, rfl, rest, accepts⟩
  · rintro (accepts | ⟨failure, middle, first, earlier, chosen, later, last, rfl, rest, accepts⟩)
    · exact ⟨[], handle, handles, heap, rfl, .nil heap, accepts⟩
    · exact ⟨handle :: earlier, chosen, later, last, rfl, .cons first rest, accepts⟩

/-- The trial returns a result if and only if some handle is the first to accept with it. -/
theorem firstAccepted_eq_some_iff {handles : List Handle} {heap after : Heap} {result : Value} :
    (firstAccepted catalog args handles).run heap = (some result, after) ↔
      FirstAccepts catalog args heap handles result after := by
  induction handles generalizing heap with
  | nil =>
    constructor
    · intro accepted
      cases accepted
    · intro accepts
      exact absurd accepts not_firstAccepts_nil
  | cons handle handles ih =>
    rw [firstAccepted_run_cons, firstAccepts_cons_iff]
    cases (handle.invoke catalog args).run.run heap with
    | mk ending middle =>
      cases ending with
      | ok value =>
        constructor
        · intro same
          cases same
          exact .inl rfl
        · rintro (same | ⟨failure, later, impossible, -⟩)
          · cases same
            rfl
          · cases impossible
      | error failure =>
        dsimp only
        rw [ih]
        constructor
        · intro accepts
          exact .inr ⟨failure, middle, rfl, accepts⟩
        · rintro (impossible | ⟨other, later, same, accepts⟩)
          · cases impossible
          · cases same
            exact accepts

/-- The trial returns no result if and only if all handles reject. -/
theorem firstAccepted_eq_none_iff {handles : List Handle} {heap after : Heap} :
    (firstAccepted catalog args handles).run heap = (none, after) ↔
      Rejects catalog args heap handles after := by
  induction handles generalizing heap with
  | nil =>
    constructor
    · intro exhausted
      cases exhausted
      exact .nil _
    · intro rejects
      cases rejects
      rfl
  | cons handle handles ih =>
    rw [firstAccepted_run_cons]
    cases outcome : (handle.invoke catalog args).run.run heap with
    | mk ending middle =>
      cases ending with
      | ok value =>
        constructor
        · intro exhausted
          cases exhausted
        · intro rejects
          cases rejects with
          | cons first rest =>
            rw [outcome] at first
            cases first
      | error failure =>
        dsimp only
        rw [ih]
        constructor
        · exact .cons outcome
        · intro rejects
          cases rejects with
          | cons first rest =>
            rw [outcome] at first
            cases first
            exact rest

/-- At some time in the course of a run, a handle is filed for a type and an operation. -/
def EverFiled (registry : Registry) (actions : List Action) (typeName : String)
    (operation : Option String) : Prop :=
  ∃ earlier, earlier <+: actions ∧ (registry.run earlier).handles typeName operation ≠ []

/-- What was ever filed is there at the end. -/
theorem everFiled_iff {registry : Registry} {actions : List Action} {typeName : String}
    {operation : Option String} :
    registry.EverFiled actions typeName operation ↔
      (registry.run actions).handles typeName operation ≠ [] := by
  constructor
  · rintro ⟨earlier, ⟨later, rfl⟩, filled⟩
    rw [run_append]
    exact (grows_run (registry.run earlier) later).handles_ne_nil filled
  · intro filled
    exact ⟨actions, List.prefix_rfl, filled⟩

/-- Handles are filed for a type by the registrations that succeed on the type itself, and by those
of virtual operations on a supertype. -/
theorem everFiled_iff_made (catalog : Catalog) (rooted : catalog.hierarchy.Rooted)
    (packages : List String) (order : TableOrder) (actions : List Action) (typeName : String)
    (operation : Option String) :
    (fresh catalog packages order).EverFiled actions typeName operation ↔
      ((fresh catalog packages order).run actions).discovery.contains typeName ∧
        ∃ handle ∈ (fresh catalog packages order).made actions, handle.name = operation ∧
          (handle.declaring = typeName ∨
            handle.kind = .virtual ∧ catalog.hierarchy.isAssignable typeName handle.declaring) := by
  have settled := settled_run catalog packages order actions
  have history := evolves_run (fresh catalog packages order) actions
  have sameCatalog : ((fresh catalog packages order).run actions).catalog = catalog :=
    history.catalog_eq
  have placed : ((fresh catalog packages order).run actions).FiledAs fun place handle =>
      handle.declaring = place ∨
        handle.kind = .virtual ∧ catalog.hierarchy.isAssignable place handle.declaring := by
    refine filedAs_of_evolves (filedAs_fresh catalog packages order)
      (settled_fresh catalog packages order)
      history ?_ fun _ _ => id
    rintro place supertype handle assignable virtual (rfl | ⟨-, above⟩)
    · exact .inr ⟨virtual, assignable⟩
    · exact .inr ⟨virtual, rooted.isAssignable_trans assignable above⟩
  rw [everFiled_iff]
  constructor
  · intro filled
    obtain ⟨handle, member⟩ := List.exists_mem_of_ne_nil _ filled
    have held := mem_handles_iff.1 member
    obtain ⟨made, discovered⟩ := settled.filed held
    exact ⟨discovered, handle, made, (mem_bucket_iff.1 held).2.1, placed _ _ _ handle held⟩
  · rintro ⟨discovered, handle, made, named, place⟩
    rw [← sameCatalog] at place
    have concerned := concerns_iff.2 ⟨belongs_iff.2 ⟨named, rfl⟩, place⟩
    obtain ⟨other, held, -⟩ := settled.reaches discovered made concerned
    obtain ⟨filed, otherNamed, -⟩ := mem_bucket_iff.1 held
    exact List.ne_nil_of_mem (mem_handles_iff.2 (mem_bucket_iff.2 ⟨filed, otherNamed, rfl⟩))

/-- How a call of a known type ends: nothing was ever filed for it, or it searches a list of handles
for the first that accepts the arguments. -/
structure EndsBySearch (catalog : Catalog) (heap : Heap) (args : List Value)
    (qualified label : String) (everFiled : Prop) (tried : List Handle)
    (ending : Except RuntimeError Value × Heap) : Prop where
  /-- It has no handle if and only if none was ever filed. -/
  noHandle : ∀ owner name after, ending = (.error (.noHandle owner name), after) ↔
    ¬ everFiled ∧ owner = qualified ∧ name = label ∧ after = heap
  /-- It returns what the first handle returns that accepts. -/
  accepted : ∀ result after, ending = (.ok result, after) ↔
    FirstAccepts catalog args heap tried result after
  /-- It has no matching overload if and only if one was filed and all that are tried reject. -/
  noMatchingOverload : ∀ owner name types after,
    ending = (.error (.noMatchingOverload owner name types), after) ↔
      everFiled ∧ Rejects catalog args heap tried after ∧
        owner = qualified ∧ name = label ∧ types = argumentTypes args

/-- Without handles nothing is tried. -/
theorem endsBySearch_untried (heap : Heap) (qualified label : String) :
    EndsBySearch catalog heap args qualified label False []
      (.error (.noHandle qualified label), heap) where
  noHandle owner name after := by
    simp only [Prod.mk.injEq, Except.error.injEq, RuntimeError.noHandle.injEq, not_false_eq_true,
      true_and, and_assoc, eq_comm]
  accepted result after := by
    constructor
    · intro impossible
      cases impossible
    · intro accepts
      exact absurd accepts not_firstAccepts_nil
  noMatchingOverload owner name types after := by simp

theorem endsBySearch_accepted {heap after : Heap} {tried : List Handle} {result : Value}
    (outcome : (firstAccepted catalog args tried).run heap = (some result, after))
    (qualified label : String) :
    EndsBySearch catalog heap args qualified label True tried (.ok result, after) where
  noHandle owner name later := by simp
  accepted other later := by
    rw [← firstAccepted_eq_some_iff, outcome]
    constructor <;> intro same <;> cases same <;> rfl
  noMatchingOverload owner name types later := by
    rw [← firstAccepted_eq_none_iff, outcome]
    constructor
    · intro impossible
      cases impossible
    · rintro ⟨-, impossible, -⟩
      cases impossible

theorem endsBySearch_exhausted {heap after : Heap} {tried : List Handle}
    (outcome : (firstAccepted catalog args tried).run heap = (none, after))
    (qualified label : String) :
    EndsBySearch catalog heap args qualified label True tried
      (.error (.noMatchingOverload qualified label (argumentTypes args)), after) where
  noHandle owner name later := by simp
  accepted other later := by
    rw [← firstAccepted_eq_some_iff, outcome]
    constructor <;> intro impossible <;> cases impossible
  noMatchingOverload owner name types later := by
    rw [← firstAccepted_eq_none_iff, outcome]
    constructor
    · intro same
      cases same
      exact ⟨trivial, rfl, rfl, rfl, rfl⟩
    · rintro ⟨-, same, rfl, rfl, rfl⟩
      cases same
      rfl

/-- A call fails to resolve its type if and only if the name refers to none. -/
theorem invoke_unresolvable_iff (registry : Registry) (heap : Heap) (admits : HandleKind → Bool)
    (typeName : String) (operation : Option String) (args : List Value) (name : String)
    (after : Heap) :
    (registry.invoke heap admits typeName operation args).1 =
        (.error (.unresolvableType name), after) ↔
      registry.lookupType? typeName = none ∧ name = typeName ∧ after = heap := by
  rw [invoke, resolver_run]
  cases registry.lookupType? typeName with
  | none =>
    simp only [Prod.mk.injEq, Except.error.injEq, RuntimeError.unresolvableType.injEq, true_and,
      eq_comm]
  | some qualified =>
    constructor
    · intro failed
      dsimp only at failed
      split at failed
      · cases failed
      · split at failed
        split at failed <;> cases failed
    · rintro ⟨impossible, -⟩
      cases impossible

/-- A call of a known type searches the handles that the type has once it is discovered. -/
theorem invoke_endsBySearch {registry : Registry} {typeName qualified : String}
    (found : registry.lookupType? typeName = some qualified) (heap : Heap)
    (admits : HandleKind → Bool) (operation : Option String) (args : List Value) :
    EndsBySearch registry.catalog heap args qualified (operation.getD constructorLabel)
      ((registry.discover qualified).handles qualified operation ≠ [])
      (((registry.discover qualified).candidates typeName operation args.length).filter
        fun handle => admits handle.kind)
      (registry.invoke heap admits typeName operation args).1 := by
  rw [invoke, resolver_run, candidates, lookupType?_discover, found]
  dsimp only
  split
  · rename_i empty
    have nothing := List.isEmpty_iff.1 empty
    rw [nothing, ne_self_iff_false, trialOrder_nil]
    exact endsBySearch_untried heap qualified _
  · rename_i filled
    have something : (registry.discover qualified).handles qualified operation ≠ [] :=
      fun empty => filled (List.isEmpty_iff.2 empty)
    rw [eq_true something, catalog_discover]
    cases outcome : (firstAccepted registry.catalog args
        ((trialOrder ((registry.discover qualified).handles qualified operation) args.length).filter
          fun handle => admits handle.kind)).run heap with
    | mk found after =>
      cases found with
      | some result => exact endsBySearch_accepted outcome _ _
      | none => exact endsBySearch_exhausted outcome _ _

/-- In every reachable registry a call resolves its type, and then searches for the first that
accepts the arguments among the candidates of the resolved type that it admits: all of them, the
virtual ones or the others.  The candidates stand bucket by bucket, from the arity of as many
parameters as there are arguments down to zero. -/
theorem invoke_first_match (catalog : Catalog) (packages : List String) (order : TableOrder)
    (actions : List Action) (heap : Heap) (admits : HandleKind → Bool) (typeName : String)
    (operation : Option String) (args : List Value) :
    let registry := (fresh catalog packages order).run actions
    let call : Action := .invoke heap admits typeName operation args
    let called := registry.invoke heap admits typeName operation args
    let tried := (called.2.candidates typeName operation args.length).filter fun handle =>
      admits handle.kind
    called.2 = registry.apply (.resolveType typeName) ∧
      (∀ name after, called.1 = (.error (.unresolvableType name), after) ↔
        registry.lookupType? typeName = none ∧ name = typeName ∧ after = heap) ∧
      ∀ qualified, registry.lookupType? typeName = some qualified →
        (tried = (List.range (args.length + 1)).reverse.flatMap fun arity =>
          (called.2.bucket qualified operation arity).filter fun handle => admits handle.kind) ∧
        EndsBySearch catalog heap args qualified (operation.getD constructorLabel)
          ((fresh catalog packages order).EverFiled (actions ++ [call]) qualified operation) tried
          called.1 := by
  intro registry call called tried
  have sameCatalog : registry.catalog = catalog :=
    (evolves_run (fresh catalog packages order) actions).catalog_eq
  have later := registry.invoke_later heap admits typeName operation args
  refine ⟨?_, registry.invoke_unresolvable_iff heap admits typeName operation args,
    fun qualified found => ?_⟩
  · rw [apply, resolveType_run]
    refine later.trans ?_
    cases registry.lookupType? typeName <;> rfl
  · have reached : called.2 = registry.discover qualified := by
      refine later.trans ?_
      rw [found]
    have stillFound : called.2.lookupType? typeName = some qualified := by
      rw [reached, lookupType?_discover, found]
    have history : (fresh catalog packages order).run (actions ++ [call]) =
        registry.discover qualified := by
      rw [run_append]
      exact reached
    refine ⟨filter_candidates stillFound admits operation args.length, ?_⟩
    have ending := invoke_endsBySearch found heap admits operation args
    rw [sameCatalog, ← reached] at ending
    rw [everFiled_iff, history, ← reached]
    exact ending

/-- A call with one variadic argument finds the operation, which accepts it. -/
theorem allDucks_found :
    let registry := (fresh pond [] .ofEntry).run allDucks
    let called := registry.invoke .empty anyKind "Duck" (some "all") [.null]
    let tried := (called.2.candidates "Duck" (some "all") 1).filter fun handle =>
      anyKind handle.kind
    registry.lookupType? "Duck" = some "Duck" ∧ called.1 = (.ok .null, .empty) ∧
      FirstAccepts pond [.null] .empty tried .null .empty := by
  intro registry called tried
  have ending := ((invoke_first_match pond [] .ofEntry allDucks .empty anyKind "Duck" (some "all")
    [.null]).2.2 "Duck" allDucks_resolves).2
  have accepted : called.1 = (.ok .null, .empty) := by
    rw [show called = ((fresh pond [] .ofEntry).run allDucks).invoke .empty anyKind "Duck"
      (some "all") [.null] from rfl, run_allDucks]
    rfl
  exact ⟨allDucks_resolves, accepted, (ending.accepted _ _).1 accepted⟩

end Colloquy.Registry
