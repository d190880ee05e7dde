import Mathlib.Data.List.Forall2
import Colloquy.Catalog.Basic
import Colloquy.Proofs.Number.Conversion

/-!
# Converted values

A value that was converted to a type is of that type: to convert it again changes nothing.
-/

namespace Colloquy

namespace Catalog

variable {catalog : Catalog}

/-- The items of a list are converted one by one. -/
theorem forall₂_of_mapM {convert : Value → Option Value} {items converted : List Value}
    (fits : items.mapM convert = some converted) :
    List.Forall₂ (fun item result => convert item = some result) items converted := by
  induction items generalizing converted with
  | nil =>
    obtain rfl : [] = converted := by simpa using fits
    exact .nil
  | cons item items ih =>
    rw [List.mapM_cons] at fits
    obtain ⟨first, firstFits, fits⟩ := Option.bind_eq_some_iff.1 fits
    obtain ⟨rest, restFits, fits⟩ := Option.bind_eq_some_iff.1 fits
    obtain rfl : first :: rest = converted := by simpa using fits
    exact .cons firstFits (ih restFits)

/-- Items that were converted stay as they are if each of them does. -/
theorem mapM_of_mapM {convert : Value → Option Value} {items converted : List Value}
    (each : ∀ item result, convert item = some result → convert result = some result)
    (fits : items.mapM convert = some converted) : converted.mapM convert = some converted := by
  have pairs := forall₂_of_mapM fits
  clear fits
  induction pairs with
  | nil => rfl
  | cons fits _ ih =>
    rw [List.mapM_cons, each _ _ fits, ih]
    rfl

/-- A class takes a value as it is or not at all. -/
theorem eq_of_coerce_named {name : String} {value converted : Value}
    (fits : catalog.coerce (.named name) value = some converted) : converted = value := by
  cases value <;> simp only [coerce, Option.ite_none_right_eq_some] at fits
  · exact (Option.some.inj fits).symm
  all_goals exact (Option.some.inj fits.2).symm

/-- A conversion leaves a value as it is, widens a number, or converts the items of an array: what
relates each of these to its outcome relates every value to what it is converted to. -/
theorem coerce_induction {motive : Value → Value → Prop} (kept : ∀ value, motive value value)
    (widened : ∀ number wide, motive (.number number) (.number wide))
    (arrays : ∀ {items results}, List.Forall₂ motive items results →
      motive (.array items) (.array results))
    {type : TypeRef} {value converted : Value}
    (fits : catalog.coerce type value = some converted) : motive value converted := by
  induction type generalizing value converted with
  | primitive type =>
    cases type <;> cases value <;> simp only [coerce, reduceCtorEq] at fits
    · cases fits
      exact kept _
    · cases fits
      exact kept _
    · obtain ⟨wide, -, rfl⟩ := Option.map_eq_some_iff.1 fits
      exact widened _ _
  | named name =>
    rw [eq_of_coerce_named fits]
    exact kept _
  | array element ih =>
    cases value <;> simp only [coerce, reduceCtorEq] at fits
    · cases fits
      exact kept _
    · obtain ⟨results, each, rfl⟩ := Option.map_eq_some_iff.1 fits
      exact arrays ((forall₂_of_mapM each).imp fun _ _ => ih)

/-- Only the absent reference is converted to the absent reference. -/
theorem isNull_of_coerce {type : TypeRef} {value converted : Value}
    (fits : catalog.coerce type value = some converted) : converted.isNull = value.isNull :=
  coerce_induction (motive := fun value converted => converted.isNull = value.isNull)
    (fun _ => rfl) (fun _ _ => rfl) (fun _ => rfl) fits

/-- A converted value is a fixed point of its conversion. -/
theorem coerce_of_coerce {type : TypeRef} {value converted : Value}
    (fits : catalog.coerce type value = some converted) :
    catalog.coerce type converted = some converted := by
  induction type generalizing value converted with
  | primitive type =>
    cases type <;> cases value <;> simp only [coerce, reduceCtorEq] at fits
    · cases fits
      rfl
    · cases fits
      rfl
    · obtain ⟨wide, widens, rfl⟩ := Option.map_eq_some_iff.1 fits
      rw [coerce, Number.widen_of_widen widens]
      rfl
  | named name =>
    obtain rfl := eq_of_coerce_named fits
    exact fits
  | array element ih =>
    cases value <;> simp only [coerce, reduceCtorEq] at fits
    · cases fits
      rfl
    · obtain ⟨results, each, rfl⟩ := Option.map_eq_some_iff.1 fits
      have fixed := mapM_of_mapM (fun _ _ => ih) each
      rw [coerce, fixed]
      rfl

end Catalog

end Colloquy
