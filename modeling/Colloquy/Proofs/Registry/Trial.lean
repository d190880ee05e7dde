import Colloquy.Proofs.Registry.Acceptance
import Colloquy.Proofs.Registry.Inheritance

/-!
# The trial of handles

A call tries the handles of each arity up to the number of its arguments.  Over host functions that
change no object it succeeds if and only if some handle accepts the arguments on its own, save the
variadic handles that would accept no variadic argument at all: their arity is one more than the
number of arguments, and they are never tried.
-/

namespace Colloquy

open Value Handle

namespace Registry

/-- A call tries the handles whose arity is at most the number of its arguments. -/
theorem mem_trialOrder_iff {handles : List Handle} {limit : Nat} {handle : Handle} :
    handle ∈ trialOrder handles limit ↔ handle ∈ handles ∧ handle.arity ≤ limit := by
  simp only [trialOrder, List.mem_flatMap, List.mem_reverse, List.mem_range, List.mem_filter,
    decide_eq_true_eq]
  constructor
  · rintro ⟨arity, below, member, rfl⟩
    exact ⟨member, by omega⟩
  · rintro ⟨member, fits⟩
    have top := arity_le_topArity member
    exact ⟨handle.arity, by omega, member, rfl⟩

theorem trialOrder_nil (limit : Nat) : trialOrder [] limit = [] := by
  refine List.eq_nil_iff_forall_not_mem.2 fun handle member => ?_
  cases (mem_trialOrder_iff.1 member).1

/-- The made handles stand for members of the host. -/
theorem Evolves.fits {start finish : Registry} {made : List Handle}
    (history : Evolves start made finish) : ∀ handle ∈ made, finish.Fits handle := by
  induction history with
  | refl =>
    intro handle member
    cases member
  | importing imports history ih =>
    intro handle member
    exact (ih handle member).later (.importing imports .refl)
  | discovering typeName history ih =>
    intro handle member
    exact (ih handle member).later (.discovering typeName .refl)
  | entering entered history fits ih =>
    intro handle member
    have step := Evolves.entering entered .refl fits
    rcases List.mem_append.1 member with earlier | last
    · exact (ih handle earlier).later step
    · rw [List.mem_singleton.1 last]
      exact fits.later step

theorem Fits.runs {holds : Native → Prop} {registry : Registry} {handle : Handle}
    (fits : registry.Fits handle) (every : registry.catalog.Every holds) : holds handle.run := by
  obtain ⟨member, offered, same⟩ := fits.member
  rw [same]
  unfold member? at offered
  split at offered
  · exact every.of_findExact? offered
  · exact every.of_findExact? offered
  · exact every.of_findInstance? offered
  · cases offered

/-- What holds of every host function of the catalog holds of whatever is filed in the course of a
run. -/
theorem holds_filed {holds : Native → Prop} {catalog : Catalog} {packages : List String}
    {order : TableOrder} {registry : Registry} {made : List Handle}
    (history : Evolves (fresh catalog packages order) made registry) (every : catalog.Every holds)
    {typeName : String} {operation : Option String} {handle : Handle}
    (filed : handle ∈ registry.handles typeName operation) : holds handle.run := by
  have sameCatalog : registry.catalog = catalog := history.catalog_eq
  have settled := (settled_fresh catalog packages order).later history
  have listed := (settled.filed (mem_handles_iff.1 filed)).1
  have fits := history.fits handle listed
  rw [← sameCatalog] at every
  exact fits.runs every

theorem filed_inert {catalog : Catalog} {packages : List String} {order : TableOrder}
    {registry : Registry} {made : List Handle}
    (history : Evolves (fresh catalog packages order) made registry)
    (inert : catalog.AllInert) {typeName : String} {operation : Option String} {handle : Handle}
    (filed : handle ∈ registry.handles typeName operation) : catalog.Inert handle.run :=
  holds_filed history inert filed

/-- Either the first handle accepts, or the others are tried on the heap that it leaves. -/
theorem firstAccepted_cons_isSome_iff (catalog : Catalog) (args : List Value) (handle : Handle)
    (handles : List Handle) (heap : Heap) :
    ((firstAccepted catalog args (handle :: handles)).run heap).1.isSome ↔
      handle.Accepts catalog heap args ∨
        ((firstAccepted catalog args handles).run
          ((handle.invoke catalog args).run.run heap).2).1.isSome := by
  rw [firstAccepted, StateT.run_bind, Accepts]
  cases (handle.invoke catalog args).run.run heap with
  | mk ending after =>
    cases ending with
    | ok result =>
      constructor
      · intro _
        exact .inl ⟨result, rfl⟩
      · intro _
        rfl
    | error failure =>
      constructor
      · intro later
        exact .inr later
      · rintro (⟨result, impossible⟩ | later)
        · cases impossible
        · exact later

/-- Over inert host functions, some handle of a list is accepted if and only if one of them accepts
the arguments on its own. -/
theorem firstAccepted_isSome_iff {catalog : Catalog} (inert : catalog.AllInert)
    {args : List Value} {heap : Heap} (closed : heap.Closed)
    (held : heap.Holds (referencesOf args)) (handles : List Handle)
    (runs : ∀ handle ∈ handles, catalog.Inert handle.run) :
    ((firstAccepted catalog args handles).run heap).1.isSome ↔
      ∃ handle ∈ handles, handle.Accepts catalog heap args := by
  induction handles generalizing heap with
  | nil =>
    constructor
    · intro accepted
      cases accepted
    · rintro ⟨handle, member, -⟩
      cases member
  | cons handle handles ih =>
    have laterRuns : ∀ other ∈ handles, catalog.Inert other.run :=
      fun other member => runs other (List.mem_cons_of_mem _ member)
    obtain ⟨grown, afterClosed⟩ :=
      invoke_keeps inert (runs handle (List.mem_cons_self ..)) closed held
    -- the first handle leaves a heap on which the others accept the same arguments
    have unchanged (other : Handle) (member : other ∈ handles) :=
      accepts_later inert (laterRuns other member) closed afterClosed held grown
    rw [firstAccepted_cons_isSome_iff, ih afterClosed (held.later grown) laterRuns]
    constructor
    · rintro (accepts | ⟨other, member, accepts⟩)
      · exact ⟨handle, List.mem_cons_self .., accepts⟩
      · exact ⟨other, List.mem_cons_of_mem _ member, (unchanged other member).1 accepts⟩
    · rintro ⟨other, member, accepts⟩
      rcases List.mem_cons.1 member with rfl | later
      · exact .inl accepts
      · exact .inr ⟨other, later, (unchanged other later).2 accepts⟩

@[simp]
theorem lookupType?_discover (registry : Registry) (typeName name : String) :
    (registry.discover typeName).lookupType? name = registry.lookupType? name := by
  obtain ⟨filed, same⟩ := registry.discover_eq_learn typeName
  rw [same]
  rfl

/-- The admitted handles in the order in which a call tries them. -/
def admitted (registry : Registry) (admits : HandleKind → Bool) (typeName : String)
    (operation : Option String) (count : Nat) : List Handle :=
  (registry.candidates typeName operation count).filter fun handle => admits handle.kind

/-- The registry after a call knows the type of the call. -/
theorem invoke_later (registry : Registry) (heap : Heap) (admits : HandleKind → Bool)
    (typeName : String) (operation : Option String) (args : List Value) :
    (registry.invoke heap admits typeName operation args).2 =
      match registry.lookupType? typeName with
      | some qualified => registry.discover qualified
      | none => registry := by
  rw [invoke_registry, resolver_run]
  cases registry.lookupType? typeName with
  | none => rfl
  | some qualified => rfl

/-- A call tries the admitted handles of the registry that it leaves. -/
theorem invoke_firstAccepted (registry : Registry) (heap : Heap) (admits : HandleKind → Bool)
    (typeName : String) (operation : Option String) (args : List Value) :
    ((registry.invoke heap admits typeName operation args).1.1.toOption,
        (registry.invoke heap admits typeName operation args).1.2) =
      (firstAccepted registry.catalog args
        ((registry.invoke heap admits typeName operation args).2.admitted admits typeName operation
          args.length)).run heap := by
  rw [invoke_later, invoke, resolver_run]
  cases found : registry.lookupType? typeName with
  | none =>
    have untried : registry.admitted admits typeName operation args.length = [] := by
      rw [admitted, candidates, found]
      rfl
    dsimp only
    rw [untried]
    rfl
  | some qualified =>
    have tried : (registry.discover qualified).admitted admits typeName operation args.length =
        (trialOrder ((registry.discover qualified).handles qualified operation)
          args.length).filter fun handle => admits handle.kind := by
      rw [admitted, candidates, lookupType?_discover, found]
    dsimp only
    rw [tried]
    split
    · rename_i empty
      rw [List.isEmpty_iff.1 empty, trialOrder_nil]
      rfl
    · rw [catalog_discover]
      cases (firstAccepted registry.catalog args
          ((trialOrder ((registry.discover qualified).handles qualified operation)
            args.length).filter fun handle => admits handle.kind)).run heap with
      | mk accepted after => cases accepted <;> rfl

/-- A call of a type that can be resolved tries the handles of the type until one accepts. -/
theorem invoke_ok_iff_firstAccepted {registry : Registry} {typeName qualified : String}
    (found : registry.lookupType? typeName = some qualified) (heap : Heap)
    (admits : HandleKind → Bool) (operation : Option String) (args : List Value) :
    (∃ result, (registry.invoke heap admits typeName operation args).1.1 = .ok result) ↔
      ((firstAccepted registry.catalog args
        ((trialOrder ((registry.discover qualified).handles qualified operation) args.length).filter
          fun handle => admits handle.kind)).run heap).1.isSome := by
  have called := registry.invoke_firstAccepted heap admits typeName operation args
  rw [invoke_later, found] at called
  dsimp only at called
  rw [admitted, candidates, lookupType?_discover, found] at called
  rw [← called]
  cases (registry.invoke heap admits typeName operation args).1.1 with
  | error error => simp [Except.toOption]
  | ok result => simp [Except.toOption]

/-- Over host functions that change no object, a call succeeds if and only if some admitted handle
of the type and the operation accepts the arguments on its own, other than a variadic handle that
would be given no variadic argument. -/
theorem invoke_ok_iff (catalog : Catalog) (inert : catalog.AllInert) (packages : List String)
    (order : TableOrder) (actions : List Action) {typeName qualified : String}
    (resolves : ((fresh catalog packages order).run actions).lookupType? typeName = some qualified)
    (admits : HandleKind → Bool) (operation : Option String) {heap : Heap} {args : List Value}
    (closed : heap.Closed) (held : heap.Holds (referencesOf args)) :
    (∃ result, (((fresh catalog packages order).run actions).invoke heap admits typeName operation
        args).1.1 = .ok result) ↔
      ∃ handle ∈ (((fresh catalog packages order).run actions).discover qualified).handles qualified
          operation,
        admits handle.kind ∧ handle.Accepts catalog heap args ∧
          ¬ (handle.external.variadic ∧ handle.arity = args.length + 1) := by
  have history := evolves_run (fresh catalog packages order) actions
  have tried : ∀ handle ∈ (trialOrder
        ((((fresh catalog packages order).run actions).discover qualified).handles qualified
          operation) args.length).filter fun handle => admits handle.kind,
      catalog.Inert handle.run := by
    intro handle member
    have filed := (mem_trialOrder_iff.1 (List.mem_filter.1 member).1).1
    exact filed_inert (.discovering qualified history) inert filed
  rw [invoke_ok_iff_firstAccepted resolves, history.catalog_eq]
  rw [show (fresh catalog packages order).catalog = catalog from rfl,
    firstAccepted_isSome_iff inert closed held _ tried]
  constructor
  · rintro ⟨handle, member, accepts⟩
    obtain ⟨listed, admitted⟩ := List.mem_filter.1 member
    obtain ⟨filed, fits⟩ := mem_trialOrder_iff.1 listed
    refine ⟨handle, filed, admitted, accepts, ?_⟩
    rintro ⟨-, short⟩
    omega
  · rintro ⟨handle, filed, admitted, accepts, notShort⟩
    have fits : handle.arity ≤ args.length := by
      rcases arity_of_accepts accepts with enough | short
      · exact enough
      · exact absurd short notShort
    exact ⟨handle, List.mem_filter.2 ⟨mem_trialOrder_iff.2 ⟨filed, fits⟩, admitted⟩, accepts⟩

theorem pond_inert : pond.AllInert := by
  have idleInert (kind : MemberKind) (param : TypeRef) (variadic : Bool) :
      pond.Inert (idle kind param variadic).run := Catalog.inert_const pond .null
  have hatchInert : pond.Inert hatch.run := Catalog.inert_allocate pond "Duck" rfl
  refine Catalog.allInert_of_members fun entry listed member offered => ?_
  simp only [pond, List.mem_cons, List.not_mem_nil, or_false] at listed
  rcases listed with rfl | rfl | rfl | rfl
  · simp only [List.mem_cons, List.not_mem_nil, or_false] at offered
    rcases offered with rfl | rfl
    · exact idleInert ..
    · exact idleInert ..
  · rw [List.mem_singleton.1 offered]
    exact idleInert ..
  · rw [List.mem_singleton.1 offered]
    exact hatchInert
  · rw [List.mem_singleton.1 offered]
    exact idleInert ..

/-- The registration of a variadic operation. -/
def allDucks : List Action := [.register .static "Duck" (some "all") "(int...)" none]

/-- The only parameter of the variadic operation. -/
def flockParam : TypeRef := .array (.primitive (.numeric (.whole .int)))

/-- The handle of the variadic operation. -/
def flock : Handle :=
  ⟨"Duck", some "all", .static, ⟨[flockParam], true, none⟩, ⟨[flockParam], true, none⟩,
    (idle .static flockParam true).run⟩

theorem run_allDucks :
    (fresh pond [] .ofEntry).run allDucks =
      { fresh pond [] .ofEntry with
        discovery := ⟨[⟨"Duck", []⟩]⟩, filings := [⟨"Duck", flock⟩] } := by
  have found : (fresh pond [] .ofEntry).lookupType? "Duck" = some "Duck" := rfl
  have offered : member? pond .static "Duck" (some "all") ⟨[flockParam], true, none⟩ =
      some (idle .static flockParam true) := rfl
  exact (register_run (makeHandle_run found (fun _ => rfl) offered)).2

theorem allDucks_resolves :
    ((fresh pond [] .ofEntry).run allDucks).lookupType? "Duck" = some "Duck" := by
  rw [run_allDucks]
  rfl

/-- A call with one variadic argument reaches the operation. -/
theorem invoke_allDucks_iff :
    pond.AllInert ∧ ((fresh pond [] .ofEntry).run allDucks).lookupType? "Duck" = some "Duck" ∧
      Heap.empty.Closed ∧ Heap.empty.Holds (referencesOf [.null]) ∧
      ((∃ result, (((fresh pond [] .ofEntry).run allDucks).invoke .empty anyKind "Duck" (some "all")
          [.null]).1.1 = .ok result) ↔
        ∃ handle ∈ (((fresh pond [] .ofEntry).run allDucks).discover "Duck").handles "Duck"
          (some "all"),
          anyKind handle.kind ∧ handle.Accepts pond .empty [.null] ∧
            ¬ (handle.external.variadic ∧ handle.arity = [Value.null].length + 1)) := by
  have closed : Heap.empty.Closed := fun state member => by cases member
  have held : Heap.empty.Holds (referencesOf [.null]) := fun reference member => by cases member
  exact ⟨pond_inert, allDucks_resolves, closed, held,
    invoke_ok_iff pond pond_inert [] .ofEntry allDucks allDucks_resolves anyKind (some "all")
      closed held⟩

/-- A call without variadic arguments fails, although the operation accepts it on its own. -/
theorem allDucks_untried :
    flock ∈ (((fresh pond [] .ofEntry).run allDucks).discover "Duck").handles "Duck" (some "all") ∧
      flock.Accepts pond .empty [] ∧
      ((fresh pond [] .ofEntry).run allDucks).invoke .empty anyKind "Duck" (some "all") [] =
        ((.error (.noMatchingOverload "Duck" "all" ""), .empty),
          (fresh pond [] .ofEntry).run allDucks) := by
  rw [run_allDucks]
  refine ⟨?_, ⟨.null, rfl⟩, rfl⟩
  exact List.mem_singleton_self flock

end Registry

end Colloquy
