import Colloquy.Number.Basic

/-!
# Converted numbers

A number that was widened is of the kind it was widened to, and stays the same if it is whole.  A
number that has an equal one in a kind is converted to that.
-/

namespace Colloquy

theorem Floating.integer?_of_ofInt? {α : Type} {floating : Floating α} {integer : Int} {number : α}
    (found : floating.ofInt? integer = some number) :
    (floating.value number).integer? = some integer := by
  simp only [ofInt?, Option.ite_none_right_eq_some] at found
  obtain ⟨equal, same⟩ := found
  cases same
  exact equal

theorem Width.Holds.widen {narrow wide : Width} {value : Int} (fits : narrow.Holds value)
    (widens : (NumKind.whole narrow).widensTo (.whole wide)) : wide.Holds value := by
  have bits : narrow.bits ≤ wide.bits := by
    revert widens
    cases narrow <;> cases wide <;> decide
  have power : 2 ^ (narrow.bits - 1) ≤ 2 ^ (wide.bits - 1) :=
    Nat.pow_le_pow_right (by decide) (Nat.sub_le_sub_right bits 1)
  simp only [Holds, least, greatest, Nat.pow_eq] at fits ⊢
  omega

theorem Width.Holds.long {width : Width} {value : Int} (fits : width.Holds value) :
    Width.long.Holds value :=
  fits.widen (by cases width <;> decide)

namespace Number

theorem ofInt?_eq_some_iff {width : Width} {integer : Int} {number : Number} :
    ofInt? width integer = some number ↔
      ∃ fits : width.Holds integer, number = .whole ⟨width, integer, fits⟩ := by
  unfold ofInt? Whole.ofInt?
  split <;> simp_all [eq_comm]

theorem ofInt?_eq_none_iff {width : Width} {integer : Int} :
    ofInt? width integer = none ↔ ¬width.Holds integer := by
  rw [ofInt?, Option.map_eq_none_iff, Whole.ofInt?_eq_none_iff]

theorem kind_ofInt? {width : Width} {integer : Int} {number : Number}
    (fits : ofInt? width integer = some number) : number.kind = .whole width := by
  obtain ⟨-, rfl⟩ := ofInt?_eq_some_iff.1 fits
  rfl

theorem integer?_of_ofInt? {width : Width} {integer : Int} {number : Number}
    (fits : ofInt? width integer = some number) : number.integer? = some integer := by
  obtain ⟨-, rfl⟩ := ofInt?_eq_some_iff.1 fits
  rfl

/-- A widened number is of the kind that it was widened to. -/
theorem kind_of_widen {target : NumKind} {number wide : Number}
    (fits : number.widen target = some wide) : wide.kind = target := by
  unfold widen at fits
  split at fits
  · split at fits
    · exact kind_ofInt? fits
    · obtain ⟨single, -, rfl⟩ := Option.map_eq_some_iff.1 fits
      rfl
    · cases fits
      rfl
    · obtain ⟨double, -, rfl⟩ := Option.map_eq_some_iff.1 fits
      rfl
    · cases fits
      rfl
    · cases fits
      rfl
    · cases fits
  · cases fits

@[simp]
theorem widen_kind (number : Number) : number.widen number.kind = some number := by
  have reflexive : number.kind.widensTo number.kind := by simp [NumKind.widensTo]
  unfold widen
  rw [if_pos reflexive]
  cases number with
  | whole number => simp [kind, ofInt?]
  | float number => rfl
  | double number => rfl

theorem widen_of_widen {target : NumKind} {number wide : Number}
    (fits : number.widen target = some wide) : wide.widen target = some wide := by
  have same := kind_of_widen fits
  subst same
  exact wide.widen_kind

/-- A whole number keeps its value when it is widened, to a floating kind too. -/
theorem integer?_of_widen {number : Whole} {kind : NumKind} {wide : Number}
    (fits : (whole number).widen kind = some wide) : wide.integer? = some number.value := by
  unfold widen at fits
  split at fits
  · cases kind with
    | whole width => exact integer?_of_ofInt? fits
    | float =>
      obtain ⟨single, found, rfl⟩ := Option.map_eq_some_iff.1 fits
      exact Floating.integer?_of_ofInt? found
    | double =>
      obtain ⟨double, found, rfl⟩ := Option.map_eq_some_iff.1 fits
      exact Floating.integer?_of_ofInt? found
  · cases fits

/-- The first number is converted to a kind that is at least as wide, and the second one is the
outcome. -/
structure WidensTo (num : Number) (kind : NumKind) (wide : Number) : Prop where
  /-- The outcome is that of widening. -/
  converts : num.widen kind = some wide
  /-- The outcome is of the kind. -/
  kind_eq : wide.kind = kind
  /-- The kind is not narrower. -/
  widens : num.kind.widensTo kind
  /-- A whole number keeps its value. -/
  integer : ∀ integer, num.integral? = some integer → wide.integer? = some integer

theorem widensTo_iff {num : Number} {kind : NumKind} {wide : Number} :
    num.WidensTo kind wide ↔ num.widen kind = some wide := by
  refine ⟨WidensTo.converts, fun fits => ⟨fits, kind_of_widen fits, ?_, fun integer same => ?_⟩⟩
  · unfold widen at fits
    split at fits
    · assumption
    · cases fits
  · cases num with
    | whole number =>
      cases same
      exact integer?_of_widen fits
    | float number => cases same
    | double number => cases same

/-- A number that has an equal one in a kind is converted to one of that kind. -/
theorem kind_of_exact {number equal : Number} {kind : NumKind}
    (found : number.exact kind = some equal) : equal.kind = kind := by
  unfold exact at found
  split at found
  · obtain ⟨integer, -, fits⟩ := Option.bind_eq_some_iff.1 found
    exact kind_ofInt? fits
  · obtain ⟨single, -, rfl⟩ := Option.map_eq_some_iff.1 found
    rfl
  · cases found
    rfl
  · obtain ⟨-, same⟩ := Option.ite_none_right_eq_some.1 found
    cases same
    rfl
  · obtain ⟨double, -, rfl⟩ := Option.map_eq_some_iff.1 found
    rfl
  · cases found
    rfl
  · cases found
    rfl

end Number

end Colloquy
