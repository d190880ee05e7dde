import Colloquy.Proofs.Host.Promises
import Colloquy.Proofs.Registry.Delivery
import Colloquy.Proofs.Registry.Search

/-!
# Safe calls

A call of a handle gives its host function what was promised to it, unless an argument is the absent
reference.  So calls lead from sound heaps to sound heaps, and host functions fail with faults only.
-/

namespace Colloquy

open Host

/-- The members of the catalog are safe by what is promised to them, and its types are those of the
library. -/
structure Catalog.Guarded (catalog : Catalog) : Prop where
  safe : catalog.Each SafeMember
  types : catalog.hierarchy = typesOnly.hierarchy

theorem guarded_catalog {catalog : Catalog} (built : Host.catalog = .ok catalog) :
    catalog.Guarded :=
  let ⟨safe, types⟩ := safe_catalog built
  ⟨safe, types⟩

theorem Catalog.Guarded.rooted {catalog : Catalog} (guarded : catalog.Guarded) :
    catalog.hierarchy.Rooted := by
  have root : typesOnly.hierarchy.supertypes TypeName.object = [] := by decide +kernel
  rw [guarded.types]
  exact root

namespace Host

variable {alphabet : Alphabet} {heap : Heap} {catalog : Catalog}

theorem meets_of_forall₂ {demands : List Demand} {args : List Value}
    (each : List.Forall₂ Demand.Met demands args) : Meets demands args := by
  intro index demand promised
  have within := (List.getElem?_eq_some_iff.1 promised).1
  have given : index < args.length := each.length_eq ▸ within
  refine ⟨args[index], List.getElem?_eq_getElem given, ?_⟩
  rw [List.getElem?_eq_getElem within, Option.some_inj] at promised
  rw [← promised]
  exact each.get within given

/-- Values that convert to themselves are what the types of their parameters promise. -/
theorem met_of_typed (guarded : catalog.Guarded) {params : List TypeRef} {values : List Value}
    (typed : List.Forall₂ (fun type value => catalog.coerce type value = some value) params values)
    (sound : ∀ value ∈ values, value.Sound alphabet heap)
    (present : ∀ value ∈ values, ¬value.isNull) :
    List.Forall₂ Demand.Met (params.map Demand.ofType) values := by
  induction typed with
  | nil => exact .nil
  | cons fits _ ih =>
    obtain ⟨firstSound, restSound⟩ := List.forall_mem_cons.1 sound
    obtain ⟨firstPresent, restPresent⟩ := List.forall_mem_cons.1 present
    have first := met_of_coerce guarded.types firstSound firstPresent fits
    exact .cons first (ih restSound restPresent)

end Host

namespace Handle

variable {alphabet : Alphabet} {heap : Heap} {catalog : Catalog} {handle : Handle}

/-- The receiver is one that the members of a kind on a type are called with. -/
def Receives (catalog : Catalog) (typeName : String) (kind : MemberKind) :
    Option Value → Prop
  | some value => kind = .method ∧ catalog.hierarchy.isAssignable value.typeName typeName
  | none => kind ≠ .method

/-- What is given to a host function is what was promised to it. -/
theorem Delivered.meets {receiver : Option Value} {given : List Value}
    (delivered : handle.Delivered catalog receiver given) (guarded : catalog.Guarded)
    {typeName : String} {kind : MemberKind} (receives : Receives catalog typeName kind receiver)
    (sound : ∀ value ∈ given, value.Sound alphabet heap)
    (present : ∀ value ∈ given, ¬value.isNull) :
    Meets (promises typeName kind handle.declared.params) given := by
  obtain ⟨values, rfl, typed⟩ := delivered.typed
  obtain ⟨receiverSound, valuesSound⟩ := List.forall_mem_append.1 sound
  obtain ⟨receiverPresent, valuesPresent⟩ := List.forall_mem_append.1 present
  have others := met_of_typed guarded typed valuesSound valuesPresent
  refine meets_of_forall₂ (List.rel_append ?_ others)
  cases receiver with
  | none =>
    rw [if_neg receives]
    exact .nil
  | some value =>
    obtain ⟨method, assignable⟩ := receives
    rw [guarded.types] at assignable
    rw [if_pos method]
    have sound := receiverSound value (.head _)
    have present := receiverPresent value (.head _)
    exact .cons (met_of_isAssignable sound present assignable) .nil

/-- A member that is found is safe by what is promised for its place. -/
theorem safe_of_findInstance? (guarded : catalog.Guarded) {typeName name : String}
    {declared : Signature} {member : Member}
    (found : catalog.findInstance? typeName name declared = some member) :
    ∃ owner, catalog.hierarchy.isAssignable typeName owner ∧
      Safe (promises owner .method declared.params) member.run := by
  obtain ⟨owner, assignable, listed, kind, params⟩ := Catalog.mem_of_findInstance? found
  have safe := guarded.safe _ _ listed
  rw [SafeMember, kind, params] at safe
  exact ⟨owner, assignable, safe⟩

theorem safe_of_findExact? (guarded : catalog.Guarded) {kind : MemberKind} {key : MemberKey}
    {declared : Signature} {member : Member}
    (found : catalog.findExact? kind key declared = some member) :
    Safe (promises key.typeName kind declared.params) member.run := by
  obtain ⟨listed, same, params⟩ := Catalog.mem_of_findExact? found
  have safe := guarded.safe _ _ listed
  rwa [SafeMember, same, params] at safe

/-- The host function of a call is safe by what is promised for a type that the receiver, if there
is one, is assignable to. -/
theorem safe_implementation (guarded : catalog.Guarded) {member : Member}
    (offered : Registry.member? catalog handle.kind handle.declaring handle.name handle.declared =
      some member) (runs : handle.run = member.run) {receiver : Option Value} {given : List Value}
    (delivered : handle.Delivered catalog receiver given) :
    ∃ typeName kind, Receives catalog typeName kind receiver ∧
      Safe (promises typeName kind handle.declared.params)
        (handle.implementation catalog receiver) := by
  unfold Registry.member? at offered
  split at offered
  · rename_i plain
    obtain rfl := delivered.plain (by simp [plain])
    have safe := safe_of_findExact? guarded offered
    rw [← runs] at safe
    exact ⟨handle.declaring, .constructor, by simp [Receives], safe⟩
  · rename_i plain named
    obtain rfl := delivered.plain (by simp [plain])
    have safe := safe_of_findExact? guarded offered
    rw [← runs] at safe
    exact ⟨handle.declaring, .static, by simp [Receives], safe⟩
  · rename_i name virtual named
    obtain ⟨value, rfl, -, assignable⟩ := delivered.received virtual
    simp only [implementation, named]
    split
    · rename_i own found
      obtain ⟨owner, above, safe⟩ := safe_of_findInstance? guarded found
      exact ⟨owner, .method, ⟨rfl, above⟩, safe⟩
    · obtain ⟨owner, above, safe⟩ := safe_of_findInstance? guarded offered
      rw [← runs] at safe
      exact ⟨owner, .method, ⟨rfl, guarded.rooted.isAssignable_trans assignable above⟩, safe⟩
  · cases offered

section Arguments

variable {holds : Value → Prop}
  (packed : ∀ items, (∀ item ∈ items, holds item) → holds (.array items))
  (converted : ∀ {type value result}, holds value → catalog.coerce type value = some result →
    holds result)

include packed in
theorem forall_of_pack? {signature : Signature} {args items : List Value}
    (fits : pack? signature args = some items) (each : ∀ arg ∈ args, holds arg) :
    ∀ item ∈ items, holds item := by
  rw [pack?] at fits
  dsimp only at fits
  split at fits
  · split at fits
    · cases fits
    · split at fits
      · rwa [← Option.some.inj fits]
      · rw [← Option.some.inj fits]
        refine List.forall_mem_append.2 ⟨fun item member => each item (List.mem_of_mem_take member),
          List.forall_mem_singleton.2 (packed _ fun item member => ?_)⟩
        exact each item (List.mem_of_mem_drop member)
  · split at fits
    · rwa [← Option.some.inj fits]
    · cases fits

include converted in
theorem forall_of_convert {position : Nat} {externals declareds : List TypeRef}
    {values results : List Value}
    (fits : convert catalog position externals declareds values = .ok results)
    (each : ∀ value ∈ values, holds value) : ∀ result ∈ results, holds result := by
  fun_induction convert catalog position externals declareds values generalizing results with
  | case1 position external externals declared declareds value values first both ih =>
    obtain ⟨middle, outer, inner⟩ := Option.bind_eq_some_iff.1 both
    obtain ⟨here, others⟩ := List.forall_mem_cons.1 each
    cases rest : convert catalog (position + 1) externals declareds values with
    | error failure =>
      rw [rest] at fits
      cases fits
    | ok later =>
      rw [rest] at fits
      cases fits
      exact List.forall_mem_cons.2 ⟨converted (converted here outer) inner, ih rest others⟩
  | case2 => cases fits
  | case3 =>
    cases fits
    exact List.forall_mem_nil _

include packed converted in
/-- What packing and conversion keep of the arguments of a call holds of what the host function is
given. -/
theorem forall_of_arguments {args given : List Value} {receiver : Option Value}
    (fits : handle.arguments catalog args = .ok (receiver, given))
    (each : ∀ arg ∈ args, holds arg) : ∀ value ∈ given, holds value := by
  obtain ⟨rest, items, results, splits, packs, converts, rfl⟩ := arguments_ok fits
  obtain ⟨rfl, -⟩ := splitReceiver_ok splits
  obtain ⟨first, others⟩ := List.forall_mem_append.1 each
  have itemsHold := forall_of_pack? packed packs others
  exact List.forall_mem_append.2 ⟨first, forall_of_convert converted converts itemsHold⟩

end Arguments

theorem sound_arguments {args given : List Value} {receiver : Option Value}
    (fits : handle.arguments catalog args = .ok (receiver, given))
    (sound : ∀ arg ∈ args, arg.Sound alphabet heap) :
    ∀ value ∈ given, value.Sound alphabet heap :=
  forall_of_arguments (fun _ each => .array each) (fun sound fits => sound.coerce fits) fits sound

/-- A call without absent references gives none to the host function. -/
theorem present_arguments {args given : List Value} {receiver : Option Value}
    (fits : handle.arguments catalog args = .ok (receiver, given))
    (present : ∀ arg ∈ args, ¬arg.isNull) : ∀ value ∈ given, ¬value.isNull :=
  forall_of_arguments (fun _ _ => by simp [Value.isNull])
    (fun present fits => by rwa [Catalog.isNull_of_coerce fits]) fits present

theorem sound_convertResult {result converted : Value}
    (fits : handle.convertResult catalog result = .ok converted)
    (sound : result.Sound alphabet heap) : converted.Sound alphabet heap := by
  unfold convertResult at fits
  split at fits
  · cases fits
    exact sound
  · split at fits
    · rename_i coerced
      cases fits
      exact sound.coerce coerced
    · cases fits

/-- The call was rejected, or the host function failed with a fault or was given the absent
reference. -/
def Excused (args : List Value) (failure : InvokeFailure) : Prop :=
  ∀ message, failure = .native message → Fault message ∨ ∃ arg ∈ args, arg.isNull

variable {args : List Value}

theorem excused_splitReceiver {given : List Value} {failure : InvokeFailure}
    (fails : handle.splitReceiver catalog given = .error failure) : Excused args failure := by
  unfold splitReceiver at fails
  split at fails
  · split at fails
    · cases fails
      exact fun message native => by cases native
    · split at fails
      · cases fails
        exact fun message native => by cases native
      · cases fails
  · cases fails

theorem excused_convert {position : Nat} {externals declareds : List TypeRef} {values : List Value}
    {failure : InvokeFailure}
    (fails : convert catalog position externals declareds values = .error failure) :
    Excused args failure := by
  fun_induction convert catalog position externals declareds values with
  | case1 position external externals declared declareds value values first both ih =>
    cases rest : convert catalog (position + 1) externals declareds values with
    | error other =>
      rw [rest] at fails
      cases fails
      exact ih rest
    | ok later =>
      rw [rest] at fails
      cases fails
  | case2 =>
    cases fails
    exact fun message native => by cases native
  | case3 => cases fails

/-- Arguments that do not fit are rejected without the host function. -/
theorem excused_arguments {given : List Value} {failure : InvokeFailure}
    (fails : handle.arguments catalog given = .error failure) : Excused args failure := by
  rw [arguments] at fails
  cases splits : handle.splitReceiver catalog given with
  | error other =>
    rw [splits] at fails
    cases fails
    exact excused_splitReceiver splits
  | ok pair =>
    obtain ⟨receiver, rest⟩ := pair
    rw [splits] at fails
    dsimp only [bind, Except.bind] at fails
    cases packs : pack? handle.external rest with
    | none =>
      rw [packs] at fails
      cases fails
      exact fun message native => by cases native
    | some packed =>
      rw [packs] at fails
      dsimp only at fails
      cases converts : convert catalog 1 handle.external.params handle.declared.params packed with
      | error other =>
        rw [converts] at fails
        cases fails
        exact excused_convert converts
      | ok converted =>
        rw [converts] at fails
        cases fails

theorem excused_convertResult {result : Value} {failure : InvokeFailure}
    (fails : handle.convertResult catalog result = .error failure) : Excused args failure := by
  unfold convertResult at fails
  split at fails
  · cases fails
  · split at fails
    · cases fails
    · cases fails
      exact fun message native => by cases native

/-- A call leads from sound heaps to sound heaps and returns a sound value.  Unless an argument is
the absent reference, the host function fails with faults only. -/
theorem ensures_invoke (guarded : catalog.Guarded) (wellFormed : handle.WellFormed)
    {member : Member}
    (offered : Registry.member? catalog handle.kind handle.declaring handle.name handle.declared =
      some member) (runs : handle.run = member.run)
    (sound : ∀ arg ∈ args, arg.Sound alphabet heap) :
    (world alphabet).Ensures (handle.invoke catalog args) heap
      (fun after result => result.Sound alphabet after) (Excused args) := by
  have start : (world alphabet).Ensures (liftM (handle.arguments catalog args)) heap
      (fun _ pair => handle.arguments catalog args = .ok pair) (Excused args) := by
    refine World.ensures_lift ?_
    cases fits : handle.arguments catalog args with
    | error failure => exact excused_arguments fits
    | ok pair => exact rfl
  rw [invoke]
  refine start.bind fun middle pair leads fits => ?_
  obtain ⟨receiver, given⟩ := pair
  obtain ⟨delivered, -⟩ := (wellFormed.delivery catalog args).delivered receiver given fits
  obtain ⟨typeName, kind, receives, safe⟩ := safe_implementation guarded offered runs delivered
  have givenSound : ∀ value ∈ given, value.Sound alphabet middle :=
    sound_arguments fits fun arg member => (sound arg member).later leads.keeps
  have native : (world alphabet).Ensures (handle.implementation catalog receiver given) middle
      (fun after result => result.Sound alphabet after)
      (fun message => Excused args (.native message)) := by
    refine (safe givenSound).mono (fun _ _ holds => holds) fun message blamed other same => ?_
    cases same
    rcases blamed with fault | unmet
    · exact .inl fault
    · by_contra excused
      obtain ⟨-, nonnull⟩ := not_or.1 excused
      have present := present_arguments fits fun arg member null => nonnull ⟨arg, member, null⟩
      exact unmet (delivered.meets guarded receives givenSound present)
  refine native.adapt.bind fun after result _ resultSound => World.ensures_lift ?_
  cases converts : handle.convertResult catalog result with
  | error failure => exact excused_convertResult converts
  | ok converted => exact sound_convertResult converts resultSound

end Handle

namespace Registry

/-- The members of the registry are safe, and its handles are made for them. -/
structure Guarded (registry : Registry) : Prop where
  catalog : registry.catalog.Guarded
  handles : ∀ {typeName operation handle}, handle ∈ registry.handles typeName operation →
    handle.WellFormed ∧ registry.Fits handle

/-- Whatever is asked of a registry over safe members, its handles are made for safe members. -/
theorem guarded_serve {catalog : Catalog} (guarded : catalog.Guarded) (packages : List String)
    (order : TableOrder) (requests : List Request) :
    ((fresh catalog packages order).serve requests).Guarded := by
  have history := evolves_run (fresh catalog packages order) (requests.map Request.action)
  have settled := settled_run catalog packages order (requests.map Request.action)
  have same : ((fresh catalog packages order).serve requests).catalog = catalog :=
    history.catalog_eq
  constructor
  · rwa [same]
  · intro typeName operation handle filed
    have made := (settled.filed (mem_handles_iff.1 filed)).1
    exact ⟨wellFormed_of_made made, history.fits handle made⟩

variable {alphabet : Alphabet} {registry : Registry} {args : List Value} {heap : Heap}

theorem Guarded.ensures_invoke (guarded : registry.Guarded) {typeName : String}
    {operation : Option String} {handle : Handle}
    (filed : handle ∈ registry.handles typeName operation)
    (sound : ∀ arg ∈ args, arg.Sound alphabet heap) :
    (world alphabet).Ensures (handle.invoke registry.catalog args) heap
      (fun after result => result.Sound alphabet after) (Handle.Excused args) := by
  obtain ⟨wellFormed, fits⟩ := guarded.handles filed
  obtain ⟨member, offered, runs⟩ := fits.member
  exact Handle.ensures_invoke guarded.catalog wellFormed offered runs sound

/-- The outcome is a sound heap that objects are kept on, with a sound result if there is one. -/
structure Yields (alphabet : Alphabet) (heap : Heap) (outcome : Option Value × Heap) : Prop where
  leads : (world alphabet).Leads heap outcome.2
  sound : ∀ result ∈ outcome.1, result.Sound alphabet outcome.2

/-- Handles that reject the arguments lead to sound heaps too. -/
theorem Guarded.yields_firstAccepted (guarded : registry.Guarded) {handles : List Handle}
    (filed : ∀ handle ∈ handles, ∃ typeName operation, handle ∈ registry.handles typeName operation)
    (heapSound : heap.Sound alphabet) (sound : ∀ arg ∈ args, arg.Sound alphabet heap) :
    Yields alphabet heap ((firstAccepted registry.catalog args handles).run heap) := by
  induction handles generalizing heap with
  | nil => exact ⟨⟨heapSound, .refl _⟩, fun result member => by cases member⟩
  | cons handle handles ih =>
    obtain ⟨⟨typeName, operation, here⟩, others⟩ := List.forall_mem_cons.1 filed
    obtain ⟨leads, ends⟩ := guarded.ensures_invoke here sound heapSound
    rw [firstAccepted_run_cons]
    cases outcome : (handle.invoke registry.catalog args).run.run heap with
    | mk ending middle =>
      rw [outcome] at leads ends
      cases ending with
      | ok result =>
        refine ⟨leads, fun other member => ?_⟩
        cases member
        exact ends
      | error failure =>
        have later := ih others leads.sound fun arg member => (sound arg member).later leads.keeps
        exact ⟨leads.trans later.leads, later.sound⟩

theorem serve_concat (requests : List Request) (request : Request) :
    registry.serve (requests ++ [request]) = (registry.serve requests).apply request.action := by
  rw [serve, List.map_append, run_append]
  rfl

/-- A call leaves the registry as a resolution of its type does. -/
theorem invoke_eq_resolveType (registry : Registry) (heap : Heap) (admits : HandleKind → Bool)
    (typeName : String) (operation : Option String) (args : List Value) :
    (registry.invoke heap admits typeName operation args).2 =
      registry.apply (.resolveType typeName) := by
  rw [invoke_later, apply, resolveType_run]
  cases registry.lookupType? typeName <;> rfl

/-- A call leads from a sound heap to a sound heap, and what it returns is sound. -/
theorem yields_invoke {admits : HandleKind → Bool} {typeName : String} {operation : Option String}
    (guarded : (registry.invoke heap admits typeName operation args).2.Guarded)
    (heapSound : heap.Sound alphabet) (sound : ∀ arg ∈ args, arg.Sound alphabet heap) :
    let called := registry.invoke heap admits typeName operation args
    Yields alphabet heap (called.1.1.toOption, called.1.2) := by
  intro called
  have same : called.2.catalog = registry.catalog :=
    (evolves_apply registry (.invoke heap admits typeName operation args)).catalog_eq
  have outcome := registry.invoke_firstAccepted heap admits typeName operation args
  rw [← same] at outcome
  rw [outcome]
  refine guarded.yields_firstAccepted (fun handle tried => ?_) heapSound sound
  obtain ⟨listed, -⟩ := List.mem_filter.1 tried
  rw [candidates] at listed
  split at listed
  · exact ⟨_, _, (mem_trialOrder_iff.1 listed).1⟩
  · cases listed

end Registry

end Colloquy
