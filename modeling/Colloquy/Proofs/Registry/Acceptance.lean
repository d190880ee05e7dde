import Colloquy.Proofs.Catalog.Inert
import Colloquy.Registry.Handle

/-!
# What a handle accepts

Whether a handle accepts arguments is decided by their number, by their conversions and by the host
function.  A variadic handle also accepts one argument less than its arity counts.
-/

namespace Colloquy

open Value

namespace Handle

/-- The handle accepts the arguments of a call on its own. -/
def Accepts (handle : Handle) (catalog : Catalog) (heap : Heap) (args : List Value) : Prop :=
  ∃ result, ((handle.invoke catalog args).run.run heap).1 = .ok result

theorem referencesOf_take_drop (count : Nat) (args : List Value) :
    referencesOf (args.take count ++ [.array (args.drop count)]) = referencesOf args := by
  calc
    referencesOf (args.take count ++ [.array (args.drop count)]) =
        referencesOf (args.take count) ++ referencesOf (args.drop count) := by
      rw [referencesOf_append, referencesOf, references, referencesOf, List.append_nil]
    _ = referencesOf args := by rw [← referencesOf_append, List.take_append_drop]

theorem references_of_pack? {signature : Signature} {args packed : List Value}
    (fits : pack? signature args = some packed) : referencesOf packed = referencesOf args := by
  rw [pack?] at fits
  dsimp only at fits
  split at fits
  · split at fits
    · cases fits
    · split at fits
      · rw [Option.some.inj fits]
      · rw [← Option.some.inj fits]
        exact referencesOf_take_drop _ _
  · split at fits
    · rw [Option.some.inj fits]
    · cases fits

theorem length_of_pack? {signature : Signature} {args packed : List Value}
    (fits : pack? signature args = some packed) :
    args.length = signature.arity ∨ signature.variadic ∧ signature.arity ≤ args.length + 1 := by
  rw [pack?] at fits
  dsimp only at fits
  split at fits
  · rename_i variadic
    split at fits
    · cases fits
    · rename_i enough
      exact .inr ⟨variadic, by omega⟩
  · split at fits
    · rename_i equal
      exact .inl equal
    · cases fits

theorem references_of_convert {catalog : Catalog} {position : Nat}
    {externals declareds : List TypeRef} {values converted : List Value}
    (fits : convert catalog position externals declareds values = .ok converted) :
    referencesOf converted ⊆ referencesOf values := by
  fun_induction convert catalog position externals declareds values generalizing converted with
  | case1 position external externals declared declareds value values first both ih =>
    obtain ⟨middle, outer, inner⟩ := Option.bind_eq_some_iff.1 both
    have firstReferences : first.references ⊆ value.references :=
      List.Subset.trans (Catalog.references_of_coerce inner) (Catalog.references_of_coerce outer)
    cases rest : convert catalog (position + 1) externals declareds values with
    | error failure =>
      rw [rest] at fits
      cases fits
    | ok others =>
      rw [rest] at fits
      cases fits
      rw [referencesOf, referencesOf]
      exact List.append_subset.2
        ⟨List.subset_append_of_subset_left _ firstReferences,
          List.subset_append_of_subset_right _ (ih rest)⟩
  | case2 => cases fits
  | case3 =>
    cases fits
    exact List.nil_subset _

/-- The receiver and the rest are the arguments, and only a virtual handle has a receiver. -/
theorem splitReceiver_ok {handle : Handle} {catalog : Catalog} {args rest : List Value}
    {receiver : Option Value}
    (fits : handle.splitReceiver catalog args = .ok (receiver, rest)) :
    receiver.toList ++ rest = args ∧
      receiver.toList.length = if handle.kind = .virtual then 1 else 0 := by
  unfold splitReceiver at fits
  split at fits
  · rename_i virtual
    rw [if_pos virtual]
    split at fits
    · cases fits
    · split at fits
      · cases fits
      · cases fits
        exact ⟨rfl, rfl⟩
  · rename_i plain
    rw [if_neg plain]
    cases fits
    exact ⟨rfl, rfl⟩

theorem arguments_ok {handle : Handle} {catalog : Catalog} {args given : List Value}
    {receiver : Option Value} (fits : handle.arguments catalog args = .ok (receiver, given)) :
    ∃ rest packed converted, handle.splitReceiver catalog args = .ok (receiver, rest) ∧
      pack? handle.external rest = some packed ∧
      convert catalog 1 handle.external.params handle.declared.params packed = .ok converted ∧
      given = receiver.toList ++ converted := by
  rw [arguments] at fits
  cases splits : handle.splitReceiver catalog args with
  | error failure =>
    rw [splits] at fits
    cases fits
  | ok pair =>
    obtain ⟨first, rest⟩ := pair
    rw [splits] at fits
    dsimp only [bind, Except.bind] at fits
    cases packs : pack? handle.external rest with
    | none =>
      rw [packs] at fits
      cases fits
    | some packed =>
      rw [packs] at fits
      dsimp only at fits
      cases converts : convert catalog 1 handle.external.params handle.declared.params packed with
      | error failure =>
        rw [converts] at fits
        cases fits
      | ok converted =>
        rw [converts] at fits
        cases fits
        exact ⟨rest, packed, converted, rfl, packs, converts, rfl⟩

/-- The host function is given nothing new. -/
theorem references_of_arguments {handle : Handle} {catalog : Catalog} {args given : List Value}
    {receiver : Option Value} (fits : handle.arguments catalog args = .ok (receiver, given)) :
    referencesOf given ⊆ referencesOf args := by
  obtain ⟨rest, packed, converted, splits, packs, converts, rfl⟩ := arguments_ok fits
  obtain ⟨rfl, -⟩ := splitReceiver_ok splits
  have inner := references_of_convert converts
  rw [references_of_pack? packs] at inner
  rw [referencesOf_append, referencesOf_append]
  exact List.append_subset.2
    ⟨List.subset_append_left _ _, List.subset_append_of_subset_right _ inner⟩

/-- Arguments that fit are as many as the arity says, or more for a variadic handle, which also
takes one less. -/
theorem arity_of_arguments {handle : Handle} {catalog : Catalog} {args given : List Value}
    {receiver : Option Value} (fits : handle.arguments catalog args = .ok (receiver, given)) :
    handle.arity ≤ args.length ∨
      handle.external.variadic ∧ handle.arity = args.length + 1 := by
  obtain ⟨rest, packed, converted, splits, packs, -, -⟩ := arguments_ok fits
  obtain ⟨rfl, receivers⟩ := splitReceiver_ok splits
  rw [arity, List.length_append, receivers]
  rcases length_of_pack? packs with equal | ⟨variadic, atMost⟩
  · left
    omega
  · by_cases enough : handle.external.arity ≤ rest.length
    · left
      omega
    · right
      exact ⟨variadic, by omega⟩

/-- The result converts to the type that the handle returns, if it returns one. -/
def Returns (handle : Handle) (catalog : Catalog) (result : Value) : Prop :=
  ∀ type ∈ handle.external.returns, (catalog.coerce type result).isSome

theorem convertResult_ok_iff {handle : Handle} {catalog : Catalog} {result : Value} :
    (∃ converted, handle.convertResult catalog result = .ok converted) ↔
      handle.Returns catalog result := by
  rw [convertResult, Returns]
  cases handle.external.returns with
  | none => simp
  | some type => cases fits : catalog.coerce type result <;> simp [fits]

/-- A call runs the host function on the converted arguments and converts its result. -/
theorem invoke_run (handle : Handle) (catalog : Catalog) (args : List Value) (heap : Heap) :
    (handle.invoke catalog args).run.run heap =
      match handle.arguments catalog args with
      | .error failure => (.error failure, heap)
      | .ok (receiver, given) =>
        match (handle.implementation catalog receiver given).run.run heap with
        | (.error message, after) => (.error (.native message), after)
        | (.ok result, after) => (handle.convertResult catalog result, after) := by
  rw [invoke]
  cases handle.arguments catalog args with
  | error failure => rfl
  | ok pair =>
    obtain ⟨receiver, given⟩ := pair
    change ((do
      let result ← (handle.implementation catalog receiver given).adapt .native
      handle.convertResult catalog result : ExceptT InvokeFailure (StateM Heap) Value)).run.run
        heap = _
    rw [ExceptT.run_bind, StateT.run_bind]
    change (StateT.run (Except.mapError InvokeFailure.native <$>
      (handle.implementation catalog receiver given).run) heap >>= _) = _
    rw [StateT.run_map]
    dsimp only
    cases (handle.implementation catalog receiver given).run.run heap with
    | mk outcome after =>
      cases outcome with
      | error message => rfl
      | ok result =>
        change ((liftM (handle.convertResult catalog result) :
          ExceptT InvokeFailure (StateM Heap) Value).run.run after) =
            (handle.convertResult catalog result, after)
        cases handle.convertResult catalog result with
        | error failure => rfl
        | ok converted => rfl

/-- A handle accepts arguments that fit if the host function succeeds with a result that fits. -/
theorem accepts_iff {handle : Handle} {catalog : Catalog} {heap : Heap} {args : List Value} :
    handle.Accepts catalog heap args ↔
      ∃ receiver given, handle.arguments catalog args = .ok (receiver, given) ∧
        ∃ result, ((handle.implementation catalog receiver given).run.run heap).1 = .ok result ∧
          handle.Returns catalog result := by
  rw [Accepts]
  rw [invoke_run]
  cases fits : handle.arguments catalog args with
  | error failure => simp
  | ok pair =>
    obtain ⟨receiver, given⟩ := pair
    dsimp only
    cases outcome : (handle.implementation catalog receiver given).run.run heap with
    | mk ending after =>
      constructor
      · intro accepted
        cases ending with
        | error message =>
          obtain ⟨result, impossible⟩ := accepted
          cases impossible
        | ok result =>
          refine ⟨receiver, given, rfl, result, ?_, convertResult_ok_iff.1 accepted⟩
          rw [outcome]
      · rintro ⟨_, _, same, result, runs, returns⟩
        cases same
        rw [outcome] at runs
        change ending = .ok result at runs
        rw [runs]
        exact convertResult_ok_iff.2 returns

theorem arity_of_accepts {handle : Handle} {catalog : Catalog} {heap : Heap} {args : List Value}
    (accepts : handle.Accepts catalog heap args) :
    handle.arity ≤ args.length ∨
      handle.external.variadic ∧ handle.arity = args.length + 1 := by
  obtain ⟨receiver, given, fits, -⟩ := accepts_iff.1 accepts
  exact arity_of_arguments fits

theorem returns_iff_of_alike (handle : Handle) {catalog : Catalog}
    {first second : Except String Value} (alike : catalog.Alike first second) :
    (∃ result, first = .ok result ∧ handle.Returns catalog result) ↔
      ∃ result, second = .ok result ∧ handle.Returns catalog result := by
  cases first with
  | error message =>
    cases second with
    | error other => simp
    | ok result => exact alike.elim
  | ok firstResult =>
    cases second with
    | error other => exact alike.elim
    | ok secondResult =>
      have same : handle.Returns catalog firstResult ↔ handle.Returns catalog secondResult :=
        forall_congr' fun type => imp_congr_right fun _ => by rw [alike type]
      constructor
      · rintro ⟨result, ending, returns⟩
        cases ending
        exact ⟨secondResult, rfl, same.1 returns⟩
      · rintro ⟨result, ending, returns⟩
        cases ending
        exact ⟨firstResult, rfl, same.2 returns⟩

/-- What holds of every host function of the catalog holds of the one that a call runs. -/
theorem holds_implementation {holds : Native → Prop} {catalog : Catalog}
    (every : catalog.Every holds) {handle : Handle} (runs : holds handle.run)
    (receiver : Option Value) : holds (handle.implementation catalog receiver) := by
  unfold implementation
  split
  · split
    · rename_i found
      exact every.of_findInstance? found
    · exact runs
  · exact runs

section Inert

variable {handle : Handle} {catalog : Catalog} (inert : catalog.AllInert)
  (runs : catalog.Inert handle.run)

include inert runs

theorem inert_implementation (receiver : Option Value) :
    catalog.Inert (handle.implementation catalog receiver) :=
  holds_implementation inert runs receiver

/-- A call changes no object, whether it is accepted or not. -/
theorem invoke_keeps {heap : Heap} {args : List Value} (closed : heap.Closed)
    (held : heap.Holds (referencesOf args)) :
    heap.Extends ((handle.invoke catalog args).run.run heap).2 ∧
      ((handle.invoke catalog args).run.run heap).2.Closed := by
  rw [invoke_run]
  cases fits : handle.arguments catalog args with
  | error failure => exact ⟨.refl heap, closed⟩
  | ok pair =>
    obtain ⟨receiver, given⟩ := pair
    have givenHeld := held.of_subset (references_of_arguments fits)
    have kept := (inert_implementation inert runs receiver).keeps closed givenHeld
    dsimp only
    cases outcome : (handle.implementation catalog receiver given).run.run heap with
    | mk ending after =>
      rw [outcome] at kept
      cases ending with
      | error message => exact kept
      | ok result => exact kept

/-- Further objects do not change what a handle accepts. -/
theorem accepts_later {heap later : Heap} {args : List Value} (closed : heap.Closed)
    (laterClosed : later.Closed) (held : heap.Holds (referencesOf args))
    (grown : heap.Extends later) :
    handle.Accepts catalog later args ↔ handle.Accepts catalog heap args := by
  rw [accepts_iff, accepts_iff]
  refine exists_congr fun receiver => exists_congr fun given => and_congr_right fun fits => ?_
  have givenHeld := held.of_subset (references_of_arguments fits)
  have alike := (inert_implementation inert runs receiver).alike closed laterClosed givenHeld grown
  exact (handle.returns_iff_of_alike alike).symm

end Inert

end Handle

end Colloquy
