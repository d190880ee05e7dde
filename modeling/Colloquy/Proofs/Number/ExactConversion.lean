import Colloquy.Proofs.Number.Conversion
import Colloquy.Proofs.Number.Rounding

/-!
# Exact conversions

The exact conversion of a number to a kind finds the number of that kind which is equal to it, and
fails just in case there is none.  To a kind that its own kind widens to, a number is widened as it
is converted exactly.
-/

namespace Colloquy

open BinaryFormat

theorem BinaryFormat.single_fitsIn_double : single.FitsIn double :=
  ⟨by decide, by decide, by decide⟩

namespace Floating

variable {α β : Type} {floating : Floating α}

theorem value_ofPattern (pattern : Nat) :
    floating.value (floating.ofPattern pattern) = floating.format.decode pattern := by
  have modulus : 2 * floating.format.signBit true = 2 * floating.format.magnitudes := by
    rw [signBit_eq, Bool.toNat_true, Nat.mul_one]
  rw [value, pattern_ofPattern, modulus, decode_mod]

/-- An integer is converted just in case the format keeps it. -/
theorem ofInt?_eq_none_iff (proper : floating.format.Proper) {integer : Int} :
    floating.ofInt? integer = none ↔ ¬floating.format.Keeps integer := by
  have stands := BinaryValue.rat?_ofInt integer
  rw [← rat?_decode_encode_iff proper stands, ← value_ofPattern,
    ← BinaryValue.integer?_eq_some_iff, ← ofValue, ofInt?]
  exact ite_eq_right_iff.trans (imp_congr_right fun _ => by simp)

/-- A number is equal to the number of a wider format that it is converted to. -/
theorem rat?_convert {target : Floating β} (sourceProper : floating.format.Proper)
    (proper : target.format.Proper) (wider : floating.format.FitsIn target.format) (number : α) :
    (target.value (floating.convert target number)).rat? = (floating.value number).rat? := by
  rw [convert, value_ofPattern, BinaryFormat.rat?_convert sourceProper proper wider]
  rfl

end Floating

/-- A number of 32 bits is equal to the number of 64 bits that it is widened to. -/
theorem Double.rat?_ofSingle (number : Single) :
    (ofSingle number).value.rat? = number.value.rat? :=
  Floating.rat?_convert single_proper double_proper single_fitsIn_double number

/-- A number that some number of 32 bits is equal to comes back from 32 bits bit by bit, the sign of
a zero included. -/
theorem Double.ofSingle_ofDouble {number : Double} {equal : Single} {rational : ℚ}
    (stands : number.value.rat? = some rational) (same : equal.value.rat? = some rational) :
    ofSingle (.ofDouble number) = number := by
  obtain ⟨negative, significand, exponent, wide, -, magnitude⟩ :=
    BinaryValue.rat?_eq_some_iff.1 stands
  obtain ⟨leading, scale, normal, kept⟩ := keeps_of_decode single_proper same
  have narrowed : (Single.ofDouble number).value = .finite negative leading scale := by
    have narrow := convert_of_ne .single wide (by simp)
    rw [encode_of_normal single_proper normal (magnitude.symm.trans kept)] at narrow
    refine (Floating.value_ofPattern _).trans ?_
    exact (congrArg single.decode narrow).trans (decode_finitePattern normal)
  have pattern : number.bits.toNat = double.finitePattern negative significand exponent :=
    eq_finitePattern_of_decode double_proper number.bits.toNat_lt wide
  have back := convert_of_ne .double narrowed (by simp)
  rw [encode_of_normal double_proper (normal_of_decode double_proper wide)
    (kept.symm.trans magnitude), ← pattern] at back
  exact (congrArg ofPattern back).trans (congrArg Double.mk UInt64.ofNat_toNat)

namespace Number

variable {number : Number} {kind : NumKind}

/-- A number is widened as it is converted exactly, to the kinds that its own kind widens to. -/
theorem widen_eq (number : Number) (kind : NumKind) :
    number.widen kind = if number.kind.widensTo kind then number.exact kind else none := by
  unfold widen
  by_cases widens : number.kind.widensTo kind
  · rw [if_pos widens, if_pos widens]
    cases number with
    | whole number => cases kind <;> rfl
    | float number =>
      cases kind with
      | whole width => cases width <;> cases widens
      | float => rfl
      | double => rfl
    | double number =>
      cases kind with
      | whole width => cases width <;> cases widens
      | float => cases widens
      | double => rfl
  · rw [if_neg widens, if_neg widens]

/-- The integer of 64 bits that a number equals is its integer, where 64 bits hold that. -/
theorem long?_eq (number : Number) :
    number.long? = number.integer?.filter fun integer => Width.long.Holds integer := by
  cases number with
  | whole number =>
    have fits : Width.long.Holds number.value := number.fits.long
    simp [long?, integer?, Option.filter, fits]
  | float number =>
    have same : (Double.ofSingle number).value.integer? = number.value.integer? :=
      Option.ext fun integer => by
        rw [BinaryValue.integer?_eq_some_iff, BinaryValue.integer?_eq_some_iff,
          Double.rat?_ofSingle]
    rw [long?, Double.long?, same]
    rfl
  | double number => rfl

/-- The range of 64 bits leaves out no number of a whole kind. -/
theorem exact_whole_eq (number : Number) (width : Width) :
    number.exact (.whole width) = number.integer?.bind (ofInt? width) := by
  rw [exact, long?_eq]
  cases number.integer? with
  | none => rfl
  | some integer =>
    by_cases inRange : Width.long.Holds integer
    · simp [Option.filter, inRange]
    · have outside : ¬width.Holds integer := fun fits =>
        inRange fits.long
      simp [Option.filter, inRange, ofInt?_eq_none_iff.2 outside]

/-- The number in a whole kind is the integer that the number equals. -/
theorem integer?_of_exact {width : Width} {equal : Whole}
    (found : number.exact (.whole width) = some (whole equal)) :
    number.integer? = some equal.value := by
  rw [exact_whole_eq] at found
  obtain ⟨integer, known, fits⟩ := Option.bind_eq_some_iff.1 found
  rw [known, ← integer?_of_ofInt? fits]
  rfl

/-- An exact conversion keeps the number. -/
theorem rat?_of_exact {equal : Number} (found : number.exact kind = some equal) :
    equal.rat? = number.rat? := by
  cases kind with
  | whole width =>
    rw [exact_whole_eq] at found
    obtain ⟨integer, known, fits⟩ := Option.bind_eq_some_iff.1 found
    rw [integer?_eq_some_iff.1 known, integer?_eq_some_iff.1 (integer?_of_ofInt? fits)]
  | float =>
    cases number with
    | whole number =>
      obtain ⟨single, known, rfl⟩ := Option.map_eq_some_iff.1 found
      exact BinaryValue.integer?_eq_some_iff.1 (Floating.integer?_of_ofInt? known)
    | float number =>
      cases found
      rfl
    | double number =>
      obtain ⟨back, same⟩ := Option.ite_none_right_eq_some.1 found
      cases same
      rw [rat?, ← Double.rat?_ofSingle, back]
      rfl
  | double =>
    cases number with
    | whole number =>
      obtain ⟨double, known, rfl⟩ := Option.map_eq_some_iff.1 found
      exact BinaryValue.integer?_eq_some_iff.1 (Floating.integer?_of_ofInt? known)
    | float number =>
      cases found
      exact Double.rat?_ofSingle number
    | double number =>
      cases found
      rfl

/-- A number that is equal to one of a kind has an exact conversion to that kind. -/
theorem exact_ne_none {other : Number} {rational : ℚ} (stands : number.rat? = some rational)
    (same : other.rat? = some rational) : number.exact other.kind ≠ none := by
  cases other with
  | whole other =>
    have known : number.integer? = some other.value :=
      integer?_eq_some_iff.2 (stands.trans same.symm)
    rw [kind, exact_whole_eq, known, Option.bind_some, ne_eq, ofInt?_eq_none_iff, not_not]
    exact other.fits
  | float other =>
    cases number with
    | whole number =>
      have keeps : BinaryFormat.single.Keeps number.value :=
        keeps_of_decode single_proper (same.trans stands.symm)
      rw [kind, exact, ne_eq, Option.map_eq_none_iff]
      exact fun missing => (Floating.ofInt?_eq_none_iff single_proper).1 missing keeps
    | float number => exact Option.some_ne_none _
    | double number =>
      rw [kind, exact, if_pos (Double.ofSingle_ofDouble stands same)]
      exact Option.some_ne_none _
  | double other =>
    cases number with
    | whole number =>
      have keeps : BinaryFormat.double.Keeps number.value :=
        keeps_of_decode double_proper (same.trans stands.symm)
      rw [kind, exact, ne_eq, Option.map_eq_none_iff]
      exact fun missing => (Floating.ofInt?_eq_none_iff double_proper).1 missing keeps
    | float number => exact Option.some_ne_none _
    | double number => exact Option.some_ne_none _

/-- A finite number has no exact conversion just in case no number of the kind is equal to it. -/
theorem exact_eq_none_iff {rational : ℚ} (stands : number.rat? = some rational) :
    number.exact kind = none ↔
      ∀ other : Number, other.kind = kind → other.rat? ≠ some rational := by
  constructor
  · rintro missing other rfl same
    exact exact_ne_none stands same missing
  · intro apart
    cases found : number.exact kind with
    | none => rfl
    | some equal =>
      exact absurd ((rat?_of_exact found).trans stands) (apart equal (kind_of_exact found))

/-- A number that is an integer is converted to just the whole kinds that hold the integer. -/
theorem exact_whole_eq_none_iff {integer : Int} (stands : number.rat? = some (integer : ℚ))
    {width : Width} : number.exact (.whole width) = none ↔ ¬width.Holds integer := by
  rw [exact_whole_eq, integer?_eq_some_iff.2 stands, Option.bind_some, ofInt?_eq_none_iff]

/-- To a kind that its own kind widens to, a number is widened as it is converted exactly.  Both
conversions keep the number.  An exact one is missing just in case no number of the kind is equal to
it: from an integer to a whole kind, just in case the integer lies outside that kind. -/
theorem widen_eq_exact (number : Number) (kind : NumKind) :
    (number.kind.widensTo kind → number.widen kind = number.exact kind) ∧
    (∀ converted, number.widen kind = some converted ∨ number.exact kind = some converted →
      converted.kind = kind ∧ converted.rat? = number.rat?) ∧
    (∀ rational, number.rat? = some rational →
      (number.exact kind = none ↔
        ∀ other : Number, other.kind = kind → other.rat? ≠ some rational)) ∧
    ∀ (integer : Int) (width : Width), number.rat? = some (integer : ℚ) →
      (number.exact (.whole width) = none ↔ ¬width.Holds integer) := by
  refine ⟨fun widens => ?_, ?_, fun rational => exact_eq_none_iff,
    fun integer width stands => exact_whole_eq_none_iff stands⟩
  · rw [widen_eq, if_pos widens]
  · intro converted found
    have exactly : number.exact kind = some converted := by
      rcases found with widened | exactly
      · rw [widen_eq, Option.ite_none_right_eq_some] at widened
        exact widened.2
      · exact exactly
    exact ⟨kind_of_exact exactly, rat?_of_exact exactly⟩

/-- No floating number of 32 bits is equal to the first whole number, and the second one is just
outside the whole numbers of 16 bits. -/
theorem widen_eq_exact_limits :
    let odd : Number := .whole ⟨.int, 16777217, by decide⟩
    let outer : Number := .double ⟨0x40e0000000000000⟩
    let inner : Number := .whole ⟨.int, 32768, by decide⟩
    odd.kind.widensTo .float ∧ odd.widen .float = odd.exact .float ∧ odd.exact .float = none ∧
      odd.rat? = some ((16777217 : Int) : ℚ) ∧
      (∀ other : Number, other.kind = .float → other.rat? ≠ some ((16777217 : Int) : ℚ)) ∧
      outer.exact (.whole .int) = some inner ∧ inner.rat? = outer.rat? ∧
      outer.rat? = some ((32768 : Int) : ℚ) ∧ ¬Width.short.Holds 32768 ∧
      outer.exact (.whole .short) = none := by
  intro odd outer inner
  obtain ⟨agree, -, missing, -⟩ := widen_eq_exact odd .float
  obtain ⟨-, keeps, -, inRange⟩ := widen_eq_exact outer (.whole .int)
  have widens : odd.kind.widensTo .float := by decide
  have unfit : odd.exact .float = none := rfl
  have fits : outer.exact (.whole .int) = some inner := rfl
  have known : outer.rat? = some ((32768 : Int) : ℚ) := integer?_eq_some_iff.1 rfl
  have outside : ¬Width.short.Holds 32768 := by decide
  exact ⟨widens, agree widens, unfit, rfl, (missing _ rfl).1 unfit, fits,
    (keeps inner (.inr fits)).2, known, outside, (inRange _ .short known).2 outside⟩

end Number

end Colloquy
