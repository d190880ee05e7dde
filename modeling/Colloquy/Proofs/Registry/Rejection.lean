import Colloquy.Proofs.Host.Failures
import Colloquy.Proofs.Registry.Trial

/-!
# What rejected handles leave behind

A call tries handles until one accepts.  Nothing that a handle did is undone, so it matters what
the rejecting ones did: over the host library, only a handle whose host function succeeded, and
whose result was rejected then, can leave a trace.
-/

namespace Colloquy

open Host (Careful)

namespace Handle

variable {catalog : Catalog} {args : List Value}

/-- A handle over careful host functions rejects a call without a trace, unless it is the result
that does not convert. -/
theorem traceless_or_result (every : catalog.Every Careful) {handle : Handle}
    (runs : Careful handle.run) {heap after : Heap} {failure : InvokeFailure}
    (rejects : (handle.invoke catalog args).run.run heap = (.error failure, after)) :
    after = heap ∨ handle.external.returns.isSome ∧
      ∃ typeName expected, failure = .result typeName expected := by
  rw [invoke_run] at rejects
  cases fits : handle.arguments catalog args with
  | error other =>
    rw [fits] at rejects
    cases rejects
    exact .inl rfl
  | ok pair =>
    obtain ⟨receiver, given⟩ := pair
    have careful := holds_implementation every runs receiver
    rw [fits] at rejects
    dsimp only at rejects
    cases outcome : (handle.implementation catalog receiver given).run.run heap with
    | mk ending later =>
      rw [outcome] at rejects
      cases ending with
      | error message =>
        cases rejects
        exact .inl (careful given outcome)
      | ok result =>
        right
        have unfit : handle.convertResult catalog result = .error failure :=
          congrArg Prod.fst rejects
        unfold convertResult at unfit
        split at unfit
        · cases unfit
        · rename_i returns narrowed
          rw [narrowed]
          split at unfit
          · cases unfit
          · cases unfit
            exact ⟨rfl, _, _, rfl⟩

end Handle

namespace Registry

/-- What a call of handles in turn does to the heap, up to the first result.  A handle that is
rejected leaves the heap as it was, unless it has a narrowed return type and the host function had
succeeded with a result that is not of this type. -/
inductive Traced (catalog : Catalog) (args : List Value) :
    Heap → List Handle → Option Value → Heap → Prop
  | exhausted (heap : Heap) : Traced catalog args heap [] none heap
  | accepted {handle : Handle} {handles : List Handle} {heap after : Heap} {result : Value}
      (accepts : (handle.invoke catalog args).run.run heap = (.ok result, after)) :
      Traced catalog args heap (handle :: handles) (some result) after
  | traceless {handle : Handle} {handles : List Handle} {heap after : Heap}
      {outcome : Option Value} {failure : InvokeFailure}
      (rejects : (handle.invoke catalog args).run.run heap = (.error failure, heap))
      (rest : Traced catalog args heap handles outcome after) :
      Traced catalog args heap (handle :: handles) outcome after
  | narrowed {handle : Handle} {handles : List Handle} {heap middle after : Heap}
      {outcome : Option Value} {typeName expected : String}
      (returns : handle.external.returns.isSome)
      (rejects : (handle.invoke catalog args).run.run heap =
        (.error (.result typeName expected), middle))
      (rest : Traced catalog args middle handles outcome after) :
      Traced catalog args heap (handle :: handles) outcome after

/-- The heap changes by the handle whose result is returned, and by no other. -/
def ByChosen (catalog : Catalog) (args : List Value) (heap : Heap) (handles : List Handle) :
    Option Value → Heap → Prop
  | none, after => after = heap
  | some result, after => ∃ chosen ∈ handles,
      (chosen.invoke catalog args).run.run heap = (.ok result, after)

variable {catalog : Catalog} {args : List Value}

/-- Over careful host functions, only rejected results leave traces. -/
theorem traced_firstAccepted (every : catalog.Every Careful) {handles : List Handle}
    (runs : ∀ handle ∈ handles, Careful handle.run) (heap : Heap) :
    Traced catalog args heap handles ((firstAccepted catalog args handles).run heap).1
      ((firstAccepted catalog args handles).run heap).2 := by
  induction handles generalizing heap with
  | nil => exact .exhausted heap
  | cons handle handles ih =>
    have others := fun other member => runs other (List.mem_cons_of_mem _ member)
    rw [firstAccepted, StateT.run_bind]
    cases outcome : (handle.invoke catalog args).run.run heap with
    | mk ending middle =>
      cases ending with
      | ok result => exact .accepted outcome
      | error failure =>
        have rest := ih others middle
        rcases handle.traceless_or_result every (runs handle (List.mem_cons_self ..)) outcome with
          rfl | ⟨returns, typeName, expected, rfl⟩
        · exact .traceless outcome rest
        · exact .narrowed returns outcome rest

/-- Without narrowed return types, no handle leaves a trace but the one whose result is returned. -/
theorem Traced.unnarrowed {handles : List Handle} {heap after : Heap} {outcome : Option Value}
    (traced : Traced catalog args heap handles outcome after)
    (plain : ∀ handle ∈ handles, handle.external.returns = none) :
    ByChosen catalog args heap handles outcome after := by
  induction traced with
  | exhausted => rfl
  | accepted accepts => exact ⟨_, List.mem_cons_self .., accepts⟩
  | @traceless handle handles heap after outcome failure rejects rest ih =>
    have same := ih fun other member => plain other (List.mem_cons_of_mem _ member)
    cases outcome with
    | none => exact same
    | some result =>
      obtain ⟨chosen, member, accepts⟩ := same
      exact ⟨chosen, List.mem_cons_of_mem _ member, accepts⟩
  | narrowed returns =>
    rw [plain _ (List.mem_cons_self ..)] at returns
    cases returns

theorem careful_admitted {packages : List String} {order : TableOrder} {registry : Registry}
    {made : List Handle}
    (history : Evolves (fresh catalog packages order) made registry) (every : catalog.Every Careful)
    {admits : HandleKind → Bool} {typeName : String} {operation : Option String} {count : Nat}
    {handle : Handle} (tried : handle ∈ registry.admitted admits typeName operation count) :
    Careful handle.run := by
  obtain ⟨listed, -⟩ := List.mem_filter.1 tried
  rw [candidates] at listed
  split at listed
  · exact holds_filed history every (mem_trialOrder_iff.1 listed).1
  · cases listed

/-- Over the host library, a call changes objects only by the handles whose host functions succeed
with results that their narrowed return types reject, and by the handle whose result is returned
after them.  Handles that are rejected for any other reason leave no trace, so that there is none
where no return type is narrowed. -/
theorem traced_invoke (packages : List String) (order : TableOrder) :
    ∃ catalog, Host.catalog = .ok catalog ∧
      ∀ (actions : List Action) (heap : Heap) (admits : HandleKind → Bool) (typeName : String)
        (operation : Option String) (args : List Value),
        let called := ((fresh catalog packages order).run actions).invoke heap admits typeName
          operation args
        let tried := called.2.admitted admits typeName operation args.length
        Traced catalog args heap tried called.1.1.toOption called.1.2 ∧
          ((∀ handle ∈ tried, handle.external.returns = none) →
            ByChosen catalog args heap tried called.1.1.toOption called.1.2) := by
  obtain ⟨catalog, built⟩ := Host.catalog_built
  refine ⟨catalog, built, ?_⟩
  intro actions heap admits typeName operation args called tried
  have every := Host.every_careful built
  have history := evolves_run (fresh catalog packages order) actions
  have calling := evolves_apply ((fresh catalog packages order).run actions)
    (.invoke heap admits typeName operation args)
  have runs : ∀ handle ∈ tried, Careful handle.run :=
    fun handle listed => careful_admitted (history.trans calling) every listed
  have sameCatalog : ((fresh catalog packages order).run actions).catalog = catalog :=
    history.catalog_eq
  have outcome := ((fresh catalog packages order).run actions).invoke_firstAccepted heap admits
    typeName operation args
  rw [sameCatalog] at outcome
  have traced : Traced catalog args heap tried called.1.1.toOption called.1.2 := by
    have result := congrArg Prod.fst outcome
    have after := congrArg Prod.snd outcome
    dsimp only at result after
    rw [result, after]
    exact traced_firstAccepted every runs heap
  exact ⟨traced, traced.unnarrowed⟩

/-- The registration of `StringBuilder.reverse` with a narrowed type that its result is not of. -/
def reverseAsInt : Action :=
  .register .virtual Host.Builder.className (some "reverse") "()" (some "(): int")

/-- The call fails, but the text of the builder is turned around. -/
theorem reversed_although_rejected :
    ∃ catalog, Host.catalog = .ok catalog ∧
      let builder : ObjectRef := ⟨0, Host.Builder.className⟩
      let heap : Heap := { states := [.builder "ab"] }
      let called := ((fresh catalog [] .ofEntry).run [reverseAsInt]).invoke heap virtualOnly
        Host.Builder.className (some "reverse") [.object builder]
      called.1.1.toOption.isNone ∧ heap.builder? builder = some "ab" ∧
        called.1.2.builder? builder = some "ba" :=
  Host.exists_catalog (by decide +kernel)

end Registry

end Colloquy
