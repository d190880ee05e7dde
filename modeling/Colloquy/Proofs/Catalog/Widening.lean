import Colloquy.Proofs.Catalog.Coercion

/-!
# What a conversion changes

A value is converted to a type just in case the outcome has the form that the type asks for and
differs from the value in widened numbers only.  They are widened where the type has a numeric
primitive, and a whole number stays the same number.
-/

namespace Colloquy

namespace Catalog

/-- The value has the form that a type asks for. -/
def Fits (catalog : Catalog) : TypeRef → Value → Prop
  | .primitive (.numeric kind), value => ∃ num, value = .number num ∧ num.kind = kind
  | .primitive .boolean, value => ∃ truth, value = .bool truth
  | .primitive .char, value => ∃ character, value = .char character
  | .named name, value => value = .null ∨ catalog.hierarchy.isAssignable value.typeName name
  | .array element, value =>
    value = .null ∨ ∃ items, value = .array items ∧ ∀ item ∈ items, catalog.Fits element item

/-- The outcome is the value with numbers widened where a type has numeric primitives. -/
def Widened : TypeRef → Value → Value → Prop
  | .primitive (.numeric kind), .number num, .number wide => num.WidensTo kind wide
  | .array element, .array items, .array results => List.Forall₂ (Widened element) items results
  | _, value, converted => converted = value

variable {catalog : Catalog} {type : TypeRef} {value converted : Value}

/-- The items of a list are converted just in case each of them is. -/
theorem mapM_eq_some_iff {convert : Value → Option Value} {items results : List Value} :
    items.mapM convert = some results ↔
      List.Forall₂ (fun item result => convert item = some result) items results := by
  refine ⟨forall₂_of_mapM, fun pairs => ?_⟩
  induction pairs with
  | nil => rfl
  | cons fits _ ih =>
    rw [List.mapM_cons, fits, ih]
    rfl

/-- The values that a type takes as they are have the form that it asks for. -/
theorem coerce_eq_self_iff : catalog.coerce type value = some value ↔ catalog.Fits type value := by
  induction type generalizing value with
  | primitive type =>
    cases type with
    | boolean => cases value <;> simp [coerce, Fits]
    | char => cases value <;> simp [coerce, Fits]
    | numeric kind =>
      cases value with
      | number num =>
        have kept : num.widen kind = some num ↔ num.kind = kind :=
          ⟨Number.kind_of_widen, fun same => same ▸ num.widen_kind⟩
        simp [coerce, Fits, kept]
      | _ => simp [coerce, Fits]
  | named name => cases value <;> simp [coerce, Fits]
  | array element ih =>
    cases value with
    | array items => simp [coerce, Fits, mapM_eq_some_iff, List.forall₂_same, ih]
    | _ => simp [coerce, Fits]

theorem widened_of_coerce (fits : catalog.coerce type value = some converted) :
    Widened type value converted := by
  induction type generalizing value converted with
  | primitive type =>
    cases type with
    | boolean =>
      cases value <;> cases fits
      rfl
    | char =>
      cases value <;> cases fits
      rfl
    | numeric kind =>
      cases value with
      | number num =>
        obtain ⟨wide, widens, rfl⟩ := Option.map_eq_some_iff.1 fits
        exact Number.widensTo_iff.2 widens
      | _ => cases fits
  | named name => exact eq_of_coerce_named fits
  | array element ih =>
    cases value with
    | null =>
      cases fits
      rfl
    | array items =>
      obtain ⟨results, each, rfl⟩ := Option.map_eq_some_iff.1 fits
      exact (mapM_eq_some_iff.1 each).imp fun _ _ => ih
    | _ => cases fits

theorem coerce_of_widened (form : catalog.Fits type converted)
    (widened : Widened type value converted) : catalog.coerce type value = some converted := by
  induction type generalizing value converted with
  | primitive type =>
    cases type with
    | boolean | char =>
      obtain rfl : converted = value := widened
      exact coerce_eq_self_iff.2 form
    | numeric kind =>
      obtain ⟨wide, rfl, same⟩ := form
      cases value with
      | number num => exact congrArg (Option.map Value.number) (Number.widensTo_iff.1 widened)
      | _ => cases widened
  | named name =>
    obtain rfl : converted = value := widened
    exact coerce_eq_self_iff.2 form
  | array element ih =>
    cases value with
    | array items =>
      rcases form with rfl | ⟨results, rfl, forms⟩
      · cases widened
      · have pairs : List.Forall₂ (Widened element) items results := widened
        have each : List.Forall₂ (fun item result => catalog.coerce element item = some result)
            items results := by
          clear widened
          induction pairs with
          | nil => exact .nil
          | cons first _ others =>
            obtain ⟨here, later⟩ := List.forall_mem_cons.1 forms
            exact .cons (ih here first) (others later)
        exact congrArg (Option.map Value.array) (mapM_eq_some_iff.2 each)
    | _ =>
      obtain rfl := widened
      exact coerce_eq_self_iff.2 form

/-- A value is converted just in case the outcome has the form that the type asks for and differs
from the value in widened numbers only. -/
theorem coerce_eq_some_iff :
    catalog.coerce type value = some converted ↔
      catalog.Fits type converted ∧ Widened type value converted :=
  ⟨fun fits => ⟨coerce_eq_self_iff.1 (coerce_of_coerce fits), widened_of_coerce fits⟩,
    fun ⟨form, widened⟩ => coerce_of_widened form widened⟩

theorem length_of_widened {items : List Value} (widened : Widened type (.array items) converted) :
    ∃ results, converted = .array results ∧ results.length = items.length := by
  cases type with
  | primitive type =>
    cases type <;> exact ⟨items, widened, rfl⟩
  | named name => exact ⟨items, widened, rfl⟩
  | array element =>
    cases converted with
    | array results => exact ⟨results, rfl, (List.Forall₂.length_eq widened).symm⟩
    | _ => cases widened

theorem number_of_widened {wide : Number} (widened : Widened type value (.number wide)) :
    ∃ num, value = .number num ∧ num.kind.widensTo wide.kind := by
  have same (equal : Value.number wide = value) :
      ∃ num, value = .number num ∧ num.kind.widensTo wide.kind :=
    ⟨wide, equal.symm, by simp [NumKind.widensTo]⟩
  cases type with
  | primitive type =>
    cases type with
    | numeric kind =>
      cases value with
      | number num => exact ⟨num, rfl, widened.kind_eq.symm ▸ widened.widens⟩
      | _ => exact same widened
    | _ => exact same widened
  | named name => exact same widened
  | array element => cases value <;> exact same widened

/-- A conversion gives a value of the form that the type asks for, which is converted to itself.  It
widens numbers at the places of numeric primitives and changes nothing else: arrays keep their
length, and only a number becomes a number, of a kind that is not narrower. -/
theorem coerce_sound (fits : catalog.coerce type value = some converted) :
    catalog.Fits type converted ∧
    catalog.coerce type converted = some converted ∧
    Widened type value converted ∧
    (∀ items, value = .array items →
      ∃ results, converted = .array results ∧ results.length = items.length) ∧
    ∀ wide, converted = .number wide →
      ∃ num, value = .number num ∧ num.kind.widensTo wide.kind := by
  obtain ⟨form, widened⟩ := coerce_eq_some_iff.1 fits
  refine ⟨form, coerce_of_coerce fits, widened, ?_, ?_⟩
  · rintro items rfl
    exact length_of_widened widened
  · rintro wide rfl
    exact number_of_widened widened

/-- Whole numbers in nested arrays are widened, and absent references among them are kept. -/
theorem coerce_sound_nested :
    let type := TypeRef.array (.array (.primitive (.numeric (.whole .long))))
    let one (width : Width) := Value.number (.whole ⟨width, 1, by cases width <;> decide⟩)
    let value := Value.array [.array [one .byte, one .int], .null]
    let converted := Value.array [.array [one .long, one .long], .null]
    Catalog.ofValues.coerce type value = some converted ∧
      Catalog.ofValues.Fits type converted ∧
      Catalog.ofValues.coerce type converted = some converted ∧ Widened type value converted := by
  intro type one value converted
  have fits : Catalog.ofValues.coerce type value = some converted := rfl
  obtain ⟨form, fixed, widened, -⟩ := coerce_sound fits
  exact ⟨fits, form, fixed, widened⟩

end Catalog

end Colloquy
