import Mathlib.Data.List.Forall2
import Colloquy.Proofs.Catalog.Coercion
import Colloquy.Proofs.Registry.Acceptance
import Colloquy.Proofs.Registry.Representation

/-!
# What a host function is given

Whatever a filed handle is called with, its parameter lists line up with the packed arguments, so
that no position lies beyond the end of a list, and the host function is given values of the types
that it declares, behind a receiver of its own type.
-/

namespace Colloquy

/-- What breaks a call off, other than a rejection. -/
inductive Break where
  | underflow
  | outOfRange
deriving DecidableEq, Repr

namespace Break

variable {α : Type}

/-- One less, of a number above zero. -/
def pred : Nat → Except Break Nat
  | 0 => .error underflow
  | count + 1 => .ok count

/-- The item at a position within a list. -/
def item (items : List α) (position : Nat) : Except Break α :=
  if within : position < items.length then .ok items[position] else .error outOfRange

/-- A list cut at a position within it or at its end. -/
def cut (items : List α) (position : Nat) : Except Break (List α × List α) :=
  if position ≤ items.length then .ok (items.splitAt position) else .error outOfRange

end Break

namespace Handle

/-- The arguments are as many as the parameters, and the last one stands for a whole array. -/
def lastPacked (count fixed : Nat) (args : List Value) : Except Break Bool :=
  if args.length = count then isPacked <$> Break.item args fixed else .ok false

/-- The arguments packed for a signature, with every subtraction and position checked. -/
def packChecked (signature : Signature) (args : List Value) :
    Except Break (Option (List Value)) :=
  let count := signature.params.length
  if signature.variadic then do
    let fixed ← Break.pred count
    if args.length < fixed then .ok none
    else if ← lastPacked count fixed args then .ok (some args)
    else
      let (first, others) ← Break.cut args fixed
      .ok (some (first ++ [.array others]))
  else .ok (if args.length = count then some args else none)

/-- The arguments from a position on, converted first to the external and then to the declared
parameter at their position, with every position checked. -/
def convertChecked (catalog : Catalog) (externals declareds : List TypeRef) (position : Nat) :
    List Value → Except Break (Except InvokeFailure (List Value))
  | [] => return .ok []
  | value :: values => do
    let external ← Break.item externals position
    let failure := InvokeFailure.argument (position + 1) value.typeName external.text
    match catalog.coerce external value with
    | none => return .error failure
    | some middle =>
      let declared ← Break.item declareds position
      match catalog.coerce declared middle with
      | none => return .error failure
      | some converted =>
        let others ← convertChecked catalog externals declareds (position + 1) values
        return others.map (converted :: ·)

/-- The arguments that the host function is given, with every subtraction and position checked. -/
def argumentsChecked (handle : Handle) (catalog : Catalog) (args : List Value) :
    Except Break (Except InvokeFailure (Option Value × List Value)) :=
  match handle.splitReceiver catalog args with
  | .error failure => return .error failure
  | .ok (receiver, rest) => do
    match ← packChecked handle.external rest with
    | none => return .error (.arity handle.arity args.length)
    | some packed =>
      let converted ← convertChecked catalog handle.external.params handle.declared.params 0 packed
      return converted.map fun converted => (receiver, receiver.toList ++ converted)

theorem lastPacked_eq {count fixed : Nat} (counts : count = fixed + 1) (args : List Value) :
    lastPacked count fixed args =
      .ok (args.length = count && args.getLast?.elim false isPacked) := by
  rw [lastPacked]
  by_cases same : args.length = count
  · have within : fixed < args.length := by omega
    have before : args.length - 1 = fixed := by omega
    have last : args.getLast? = some args[fixed] := by
      rw [List.getLast?_eq_getElem?, before]
      exact List.getElem?_eq_getElem within
    rw [if_pos same, Break.item, dif_pos within, last]
    simp [same]
  · rw [if_neg same]
    simp [same]

/-- To pack arguments takes no step beyond an end, since a variadic parameter list has a last
parameter. -/
theorem packChecked_eq {signature : Signature}
    (spread : Signature.Spread signature.params signature.variadic) (args : List Value) :
    packChecked signature args = .ok (pack? signature args) := by
  rw [packChecked, pack?]
  by_cases variadic : signature.variadic
  · obtain ⟨element, last⟩ := spread variadic
    obtain ⟨fixed, counts⟩ : ∃ fixed, signature.params.length = fixed + 1 := by
      apply Nat.exists_eq_succ_of_ne_zero
      intro empty
      rw [List.length_eq_zero_iff.1 empty] at last
      cases last
    have before : signature.arity - 1 = fixed := by
      rw [Signature.arity]
      omega
    have predecessor : Break.pred signature.params.length = .ok fixed := by
      rw [counts]
      rfl
    dsimp only
    rw [if_pos variadic, if_pos variadic, predecessor, before]
    change (if args.length < fixed then _ else _) = _
    by_cases few : args.length < fixed
    · rw [if_pos few, if_pos few]
    · have enough : fixed ≤ args.length := Nat.le_of_not_lt few
      rw [if_neg few, if_neg few, lastPacked_eq counts]
      change (if _ then _ else _) = _
      rw [Signature.arity]
      split
      · rfl
      · rw [Break.cut, if_pos enough, List.splitAt_eq]
        rfl
  · dsimp only
    rw [if_neg variadic, if_neg variadic]
    rfl

/-- Packed arguments are as many as the parameters. -/
theorem length_of_packed {signature : Signature}
    (spread : Signature.Spread signature.params signature.variadic) {args packed : List Value}
    (packs : pack? signature args = some packed) : packed.length = signature.params.length := by
  rw [pack?] at packs
  dsimp only at packs
  split at packs
  · rename_i variadic
    obtain ⟨element, last⟩ := spread variadic
    have nonempty : 0 < signature.params.length := by
      apply List.length_pos_of_mem
      exact List.mem_of_getLast? last
    rw [Signature.arity] at packs
    split at packs
    · cases packs
    · split at packs
      · rename_i whole
        have same : args.length = signature.params.length := by
          simpa using (Bool.and_eq_true_iff.1 whole).1
        rw [← Option.some.inj packs, same]
      · rw [← Option.some.inj packs]
        simp
        omega
  · split at packs
    · rename_i same
      rw [← Option.some.inj packs]
      exact same
    · cases packs

/-- To convert as many arguments as there are parameters in both lists takes no position beyond an
end. -/
theorem convertChecked_eq (catalog : Catalog) {externals declareds : List TypeRef}
    (paired : declareds.length = externals.length) {position : Nat} {values : List Value}
    (counts : position + values.length = externals.length) :
    convertChecked catalog externals declareds position values =
      .ok (convert catalog (position + 1) (externals.drop position) (declareds.drop position)
        values) := by
  induction values generalizing position with
  | nil =>
    have beyond : externals.length ≤ position := by
      rw [List.length_nil] at counts
      omega
    rw [List.drop_eq_nil_of_le beyond]
    rfl
  | cons value values ih =>
    rw [List.length_cons] at counts
    have outer : position < externals.length := by omega
    have inner : position < declareds.length := by omega
    have counted : position + 1 + values.length = externals.length := by omega
    have others := ih counted
    rw [convertChecked, List.drop_eq_getElem_cons outer, List.drop_eq_getElem_cons inner, convert,
      Break.item, dif_pos outer, Break.item, dif_pos inner, others]
    cases first : catalog.coerce externals[position] value with
    | none => simp [bind, Except.bind, first, pure, Except.pure]
    | some middle =>
      cases second : catalog.coerce declareds[position] middle with
      | none => simp [bind, Except.bind, first, second, pure, Except.pure]
      | some converted => simp [bind, Except.bind, first, second, pure, Except.pure]

/-- Converted arguments are as many as the parameters, and each is of the type of its own. -/
theorem typed_of_convert {catalog : Catalog} {position : Nat} {externals declareds : List TypeRef}
    {values converted : List Value} (paired : declareds.length = externals.length)
    (counts : values.length = externals.length)
    (fits : convert catalog position externals declareds values = .ok converted) :
    List.Forall₂ (fun type value => catalog.coerce type value = some value) declareds
      converted := by
  fun_induction convert catalog position externals declareds values generalizing converted with
  | case1 position external externals declared declareds value values first both ih =>
    obtain ⟨middle, -, inner⟩ := Option.bind_eq_some_iff.1 both
    cases rest : convert catalog (position + 1) externals declareds values with
    | error failure =>
      rw [rest] at fits
      cases fits
    | ok others =>
      rw [rest] at fits
      cases fits
      refine .cons (Catalog.coerce_of_coerce inner) (ih ?_ ?_ rest)
      · simpa using paired
      · simpa using counts
  | case2 => cases fits
  | case3 externals position declareds values short =>
    cases fits
    cases declareds with
    | nil => exact .nil
    | cons declared declareds =>
      -- a parameter is left over, so that there are an external one and a value too
      obtain ⟨external, others, rfl⟩ := List.exists_cons_of_length_eq_add_one paired.symm
      obtain ⟨value, rest, rfl⟩ := List.exists_cons_of_length_eq_add_one counts
      exact (short _ _ _ _ _ _ rfl rfl rfl).elim

/-- What the host function of a handle is given: for a virtual handle a receiver of the declaring
type, and then a value for each declared parameter that is of its type. -/
structure Delivered (handle : Handle) (catalog : Catalog) (receiver : Option Value)
    (given : List Value) : Prop where
  typed : ∃ values, given = receiver.toList ++ values ∧
    List.Forall₂ (fun type value => catalog.coerce type value = some value)
      handle.declared.params values
  received : handle.kind = .virtual → ∃ value, receiver = some value ∧ ¬ value.isNull ∧
    catalog.hierarchy.isAssignable value.typeName handle.declaring
  plain : handle.kind ≠ .virtual → receiver = none

/-- A call of a handle takes no step beyond an end, and what it gives to the host function, unless
it is rejected before, is well typed. -/
structure Delivery (handle : Handle) (catalog : Catalog) (args : List Value) : Prop where
  /-- Checking each subtraction and position changes nothing. -/
  unbroken : handle.argumentsChecked catalog args = .ok (handle.arguments catalog args)
  /-- Arguments that do not fit are rejected without the host function. -/
  rejected : ∀ failure, handle.arguments catalog args = .error failure →
    ∀ heap, (handle.invoke catalog args).run.run heap = (.error failure, heap)
  /-- Arguments that fit are given to the host function once they are of the declared types. -/
  delivered : ∀ receiver given, handle.arguments catalog args = .ok (receiver, given) →
    handle.Delivered catalog receiver given ∧
      ∀ heap, (handle.invoke catalog args).run.run heap =
        match (handle.implementation catalog receiver given).run.run heap with
        | (.error message, after) => (.error (.native message), after)
        | (.ok result, after) => (handle.convertResult catalog result, after)

theorem receiver_of_split {handle : Handle} {catalog : Catalog} {args rest : List Value}
    {receiver : Option Value} (splits : handle.splitReceiver catalog args = .ok (receiver, rest))
    (virtual : handle.kind = .virtual) :
    ∃ value, receiver = some value ∧ ¬ value.isNull ∧
      catalog.hierarchy.isAssignable value.typeName handle.declaring := by
  unfold splitReceiver at splits
  rw [if_pos virtual] at splits
  cases args with
  | nil => cases splits
  | cons value others =>
    dsimp only at splits
    split at splits
    · cases splits
    · rename_i fits
      cases splits
      have suits : value.isNull = false ∧
          catalog.hierarchy.isAssignable value.typeName handle.declaring := by
        simpa using fits
      exact ⟨value, rfl, by simp [suits.1], suits.2⟩

/-- A well-formed handle delivers, whatever it is called with. -/
theorem WellFormed.delivery {handle : Handle} (wellFormed : handle.WellFormed) (catalog : Catalog)
    (args : List Value) : handle.Delivery catalog args := by
  have paired : handle.declared.params.length = handle.external.params.length :=
    wellFormed.paired.symm
  constructor
  · rw [argumentsChecked, arguments]
    cases handle.splitReceiver catalog args with
    | error failure => rfl
    | ok pair =>
      obtain ⟨receiver, rest⟩ := pair
      dsimp only [bind, Except.bind]
      rw [packChecked_eq wellFormed.external]
      cases packs : pack? handle.external rest with
      | none => rfl
      | some packed =>
        have counts : 0 + packed.length = handle.external.params.length := by
          rw [Nat.zero_add]
          exact length_of_packed wellFormed.external packs
        dsimp only
        rw [convertChecked_eq catalog paired counts, List.drop_zero, List.drop_zero]
        cases convert catalog (0 + 1) handle.external.params handle.declared.params packed with
        | error failure => rfl
        | ok converted => rfl
  · intro failure fails heap
    rw [invoke_run, fails]
  · intro receiver given fits
    obtain ⟨rest, packed, converted, splits, packs, converts, same⟩ := arguments_ok fits
    have counts := length_of_packed wellFormed.external packs
    constructor
    · refine ⟨⟨converted, same, typed_of_convert paired counts converts⟩, ?_, ?_⟩
      · exact receiver_of_split splits
      · intro plain
        have none := (splitReceiver_ok splits).2
        rw [if_neg plain] at none
        simpa using none
    · intro heap
      have runs := invoke_run handle catalog args heap
      rw [fits] at runs
      exact runs

end Handle

namespace Registry

/-- Every filed handle delivers, whatever it is called with. -/
def Delivers (registry : Registry) : Prop :=
  ∀ typeName operation, ∀ handle ∈ registry.handles typeName operation, ∀ args,
    handle.Delivery registry.catalog args

/-- Whatever is asked of a registry, its handles call their host functions with well-typed
arguments only. -/
theorem delivers_serve (catalog : Catalog) (packages : List String) (order : TableOrder)
    (requests : List Request) :
    Delivers ((fresh catalog packages order).serve requests) := by
  intro typeName operation handle filed args
  have settled := settled_run catalog packages order (requests.map Request.action)
  have made := (settled.filed (mem_handles_iff.1 filed)).1
  exact (wellFormed_of_made made).delivery _ args

end Registry

end Colloquy
