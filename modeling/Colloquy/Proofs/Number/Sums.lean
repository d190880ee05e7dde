import Colloquy.Proofs.Number.ExactConversion
import Colloquy.Proofs.Number.Wholes

/-!
# Sums of numbers

The sum of two numbers is a number of the wider or of the narrower of their kinds, and the order of
the operands does not matter for the kind.  In a whole kind the sum is exact, and it overflows just
in case the exact sum lies outside the kind.
-/

namespace Colloquy

namespace NumKind

/-- The narrower of two kinds. -/
def narrower (left right : NumKind) : NumKind := if left.widensTo right then left else right

theorem widensTo_total {left right : NumKind} (narrow : ¬left.widensTo right) :
    right.widensTo left := by
  simp only [widensTo, decide_eq_true_eq] at narrow ⊢
  omega

/-- Of two different kinds just one widens to the other. -/
theorem widensTo_cases (left right : NumKind) :
    left = right ∨ left.widensTo right = !right.widensTo left := by
  simp only [widensTo]
  by_cases same : left.rank = right.rank
  · exact .inl (rank_injective same)
  · refine .inr (Bool.eq_iff_iff.2 ?_)
    simp only [decide_eq_true_eq, Bool.not_eq_true', decide_eq_false_iff_not]
    omega

theorem promote_comm (left right : NumKind) : promote left right = promote right left := by
  rcases widensTo_cases left right with rfl | opposite
  · rfl
  · rw [promote, promote, opposite]
    cases right.widensTo left <;> rfl

theorem narrower_comm (left right : NumKind) : narrower left right = narrower right left := by
  rcases widensTo_cases left right with rfl | opposite
  · rfl
  · rw [narrower, narrower, opposite]
    cases right.widensTo left <;> rfl

/-- The kind that is not the wider one is the narrower one. -/
theorem narrower_eq (left right : NumKind) :
    (if promote left right = left then right else left) = narrower left right := by
  unfold promote narrower
  by_cases forth : left.widensTo right
  · rw [if_pos forth, if_pos forth]
    split
    · assumption
    · rfl
  · rw [if_neg forth, if_neg forth, if_pos rfl]

theorem widensTo_promote (left right : NumKind) :
    left.widensTo (promote left right) ∧ right.widensTo (promote left right) := by
  have reflexive (kind : NumKind) : kind.widensTo kind := by simp [widensTo]
  unfold promote
  split
  · exact ⟨‹_›, reflexive right⟩
  · exact ⟨reflexive left, widensTo_total ‹_›⟩

end NumKind

namespace Number

/-- The number has an equal one in a kind. -/
def reaches (number : Number) (kind : NumKind) : Bool := (number.exact kind).isSome

/-- The kind that the sum of two numbers is taken in: the wider one if both numbers reach it, else
the narrower one if both reach that, else the wider one. -/
def sumKind (left right : Number) : NumKind :=
  let wide := NumKind.promote left.kind right.kind
  let narrow := NumKind.narrower left.kind right.kind
  if left.reaches wide ∧ right.reaches wide then wide
  else if left.reaches narrow ∧ right.reaches narrow then narrow
  else wide

theorem sumKind_comm (left right : Number) : sumKind left right = sumKind right left := by
  unfold sumKind
  rw [NumKind.promote_comm left.kind, NumKind.narrower_comm left.kind]
  simp only [and_comm]

theorem sumKind_mem (left right : Number) :
    sumKind left right = left.kind ∨ sumKind left right = right.kind := by
  have wide : NumKind.promote left.kind right.kind = left.kind ∨
      NumKind.promote left.kind right.kind = right.kind := by
    unfold NumKind.promote
    split <;> simp
  have narrow : NumKind.narrower left.kind right.kind = left.kind ∨
      NumKind.narrower left.kind right.kind = right.kind := by
    unfold NumKind.narrower
    split <;> simp
  unfold sumKind
  dsimp only
  split
  · exact wide
  · split
    · exact narrow
    · exact wide

/-- A number reaches every whole kind that it widens to. -/
theorem reaches_of_widensTo {number : Number} {width : Width}
    (widens : number.kind.widensTo (.whole width)) : number.reaches (.whole width) := by
  cases number with
  | whole number =>
    rw [reaches, exact_whole (number.fits.widen widens)]
    rfl
  | float number => cases width <;> cases widens
  | double number => cases width <;> cases widens

theorem reaches_promote {left right : Number} {width : Width}
    (wide : NumKind.promote left.kind right.kind = .whole width) :
    left.reaches (.whole width) ∧ right.reaches (.whole width) := by
  obtain ⟨leftWidens, rightWidens⟩ := NumKind.widensTo_promote left.kind right.kind
  rw [wide] at leftWidens rightWidens
  exact ⟨reaches_of_widensTo leftWidens, reaches_of_widensTo rightWidens⟩

/-- Whole numbers are added in the wider of their kinds. -/
theorem sumKind_of_isWhole {left right : Number} (leftWhole : left.kind.isWhole)
    (rightWhole : right.kind.isWhole) :
    sumKind left right = NumKind.promote left.kind right.kind := by
  have whole : ∃ width, NumKind.promote left.kind right.kind = .whole width := by
    cases left <;> cases leftWhole
    cases right <;> cases rightWhole
    exact ⟨_, Width.promote_whole _ _⟩
  obtain ⟨width, wide⟩ := whole
  unfold sumKind
  rw [wide]
  exact if_pos (reaches_promote wide)

/-- The outcome is what the sum of two numbers in a kind may be. -/
def SumIn (left right : Number) : NumKind → Except SumFault Number → Prop
  | .whole width, outcome => ∃ x y, left.integer? = some x ∧ right.integer? = some y ∧
    outcome = (ofInt? width (x + y)).elim (.error .overflow) .ok
  | kind, outcome => ∃ sum, outcome = .ok sum ∧ sum.kind = kind

/-- Numbers that two numbers are equal to in one kind have a sum there. -/
theorem sumIn_of_exact {left right : Number} {kind : NumKind} {leftEqual rightEqual : Number}
    (leftExact : left.exact kind = some leftEqual)
    (rightExact : right.exact kind = some rightEqual) :
    ∃ outcome, sumAlike? leftEqual rightEqual = some outcome ∧ SumIn left right kind outcome := by
  have leftKind := kind_of_exact leftExact
  have rightKind := kind_of_exact rightExact
  cases kind with
  | whole width =>
    cases leftEqual <;> cases leftKind
    cases rightEqual with
    | whole rightEqual =>
      have sameWidth : rightEqual.width = Whole.width _ := NumKind.whole.inj rightKind
      exact ⟨_, if_pos sameWidth.symm, _, _, integer?_of_exact leftExact,
        integer?_of_exact rightExact, rfl⟩
    | float number => cases rightKind
    | double number => cases rightKind
  | float =>
    cases leftEqual <;> cases leftKind
    cases rightEqual <;> cases rightKind
    exact ⟨_, rfl, _, rfl, rfl⟩
  | double =>
    cases leftEqual <;> cases leftKind
    cases rightEqual <;> cases rightKind
    exact ⟨_, rfl, _, rfl, rfl⟩

theorem both?_exact_of_not_reaches {left right : Number} {kind : NumKind}
    (apart : ¬(left.reaches kind ∧ right.reaches kind)) : both? exact kind left right = none := by
  unfold both?
  unfold reaches at apart
  split <;> simp_all

/-- To a floating kind every number can be rounded. -/
theorem exists_approximate {kind : NumKind} (floating : kind.isWhole = false) (number : Number) :
    ∃ nearest, number.approximate kind = some nearest ∧ nearest.kind = kind := by
  cases kind with
  | whole width => cases floating
  | float => cases number <;> exact ⟨_, rfl, rfl⟩
  | double => cases number <;> exact ⟨_, rfl, rfl⟩

/-- Numbers of one floating kind have a sum there. -/
theorem sumIn_of_floating {left right leftNear rightNear : Number} {kind : NumKind}
    (floating : kind.isWhole = false) (leftKind : leftNear.kind = kind)
    (rightKind : rightNear.kind = kind) :
    ∃ outcome, sumAlike? leftNear rightNear = some outcome ∧ SumIn left right kind outcome := by
  cases kind with
  | whole width => cases floating
  | float =>
    cases leftNear <;> cases leftKind
    cases rightNear <;> cases rightKind
    exact ⟨_, rfl, _, rfl, rfl⟩
  | double =>
    cases leftNear <;> cases leftKind
    cases rightNear <;> cases rightKind
    exact ⟨_, rfl, _, rfl, rfl⟩

theorem isWhole_promote_of_not_reaches {left right : Number}
    (apart : ¬(left.reaches (NumKind.promote left.kind right.kind) ∧
      right.reaches (NumKind.promote left.kind right.kind))) :
    (NumKind.promote left.kind right.kind).isWhole = false := by
  cases kind : NumKind.promote left.kind right.kind with
  | whole width =>
    rw [kind] at apart
    exact absurd (reaches_promote kind) apart
  | float => rfl
  | double => rfl

/-- Two numbers are brought to their kind, and have a sum there. -/
theorem sumIn_add? (left right : Number) :
    ∃ outcome, left.add? right = some outcome ∧
      SumIn left right (sumKind left right) outcome := by
  have both {convert : NumKind → Number → Option Number} {kind : NumKind} {first second : Number}
      (leftFound : convert kind left = some first) (rightFound : convert kind right = some second) :
      both? convert kind left right = some (first, second) := by
    rw [both?, leftFound, rightFound]
  simp only [add?, operands?, sumKind, NumKind.narrower_eq]
  by_cases wide : left.reaches (NumKind.promote left.kind right.kind) ∧
      right.reaches (NumKind.promote left.kind right.kind)
  · obtain ⟨leftEqual, leftExact⟩ := Option.isSome_iff_exists.1 wide.1
    obtain ⟨rightEqual, rightExact⟩ := Option.isSome_iff_exists.1 wide.2
    rw [if_pos wide, both leftExact rightExact]
    exact sumIn_of_exact leftExact rightExact
  · rw [if_neg wide, both?_exact_of_not_reaches wide]
    by_cases narrow : left.reaches (NumKind.narrower left.kind right.kind) ∧
        right.reaches (NumKind.narrower left.kind right.kind)
    · obtain ⟨leftEqual, leftExact⟩ := Option.isSome_iff_exists.1 narrow.1
      obtain ⟨rightEqual, rightExact⟩ := Option.isSome_iff_exists.1 narrow.2
      rw [if_pos narrow, both leftExact rightExact]
      exact sumIn_of_exact leftExact rightExact
    · have floating := isWhole_promote_of_not_reaches wide
      obtain ⟨leftNear, leftFound, leftKind⟩ := exists_approximate floating left
      obtain ⟨rightNear, rightFound, rightKind⟩ := exists_approximate floating right
      rw [if_neg narrow, both?_exact_of_not_reaches narrow, both leftFound rightFound]
      exact sumIn_of_floating floating leftKind rightKind

/-- The exact sum of two finite numbers. -/
def ExactSum (left right : Number) (total : ℚ) : Prop :=
  ∃ x y, left.rat? = some x ∧ right.rat? = some y ∧ x + y = total

theorem exactSum_of_integer? {left right : Number} {x y : Int} (leftKnown : left.integer? = some x)
    (rightKnown : right.integer? = some y) : ExactSum left right (x + y : Int) :=
  ⟨x, y, integer?_eq_some_iff.1 leftKnown, integer?_eq_some_iff.1 rightKnown,
    (Int.cast_add x y).symm⟩

theorem ExactSum.unique {left right : Number} {total other : ℚ} (one : ExactSum left right total)
    (another : ExactSum left right other) : total = other := by
  obtain ⟨x, y, leftKnown, rightKnown, rfl⟩ := one
  obtain ⟨u, v, leftOther, rightOther, rfl⟩ := another
  rw [Option.some.inj (leftKnown.symm.trans leftOther),
    Option.some.inj (rightKnown.symm.trans rightOther)]

/-- A rational number lies outside a width. -/
def Outside (width : Width) (total : ℚ) : Prop := total < width.least ∨ width.greatest < total

theorem outside_intCast_iff {width : Width} {total : Int} :
    Outside width total ↔ ¬width.Holds total := by
  unfold Outside Width.Holds
  rw [Int.cast_lt, Int.cast_lt, not_and_or, not_le, not_le]

/-- What adding two numbers may give: a number of their kind, which is the exact sum if it is whole,
or an overflow if the exact sum lies outside the kind. -/
inductive IsSum (left right : Number) : Except SumFault Number → Prop where
  | sum {sum : Number} (kind : sum.kind = sumKind left right)
    (exact : ∀ integer, sum.integral? = some integer → ExactSum left right integer) :
    IsSum left right (.ok sum)
  | overflow {width : Width} {total : ℚ} (kind : sumKind left right = .whole width)
    (exact : ExactSum left right total) (outside : Outside width total) :
    IsSum left right (.error .overflow)

theorem isSum_of_floating {left right sum : Number} (kind : sum.kind = sumKind left right)
    (floating : sum.kind.isWhole = false) : IsSum left right (.ok sum) := by
  refine .sum kind fun integer same => ?_
  cases sum with
  | whole number => cases floating
  | float number => cases same
  | double number => cases same

theorem isSum_of_whole {left right : Number} {width : Width}
    (kind : sumKind left right = .whole width) {x y : Int}
    (leftKnown : left.integer? = some x) (rightKnown : right.integer? = some y) :
    IsSum left right ((ofInt? width (x + y)).elim (.error .overflow) .ok) := by
  have exact := exactSum_of_integer? leftKnown rightKnown
  unfold ofInt?
  cases fits : Whole.ofInt? width (x + y) with
  | none => exact .overflow kind exact (outside_intCast_iff.2 (Whole.ofInt?_eq_none_iff.1 fits))
  | some total =>
    obtain ⟨rfl, value⟩ := Whole.ofInt?_eq_some_iff.1 fits
    refine .sum kind.symm fun integer same => ?_
    cases same
    rwa [value]

theorem SumIn.isSum {left right : Number} {outcome : Except SumFault Number}
    (sum : SumIn left right (sumKind left right) outcome) : IsSum left right outcome := by
  cases kind : sumKind left right with
  | whole width =>
    rw [kind] at sum
    obtain ⟨x, y, leftKnown, rightKnown, rfl⟩ := sum
    exact isSum_of_whole kind leftKnown rightKnown
  | float =>
    rw [kind] at sum
    obtain ⟨total, rfl, same⟩ := sum
    exact isSum_of_floating (same.trans kind.symm) (by rw [same]; rfl)
  | double =>
    rw [kind] at sum
    obtain ⟨total, rfl, same⟩ := sum
    exact isSum_of_floating (same.trans kind.symm) (by rw [same]; rfl)

/-- Two numbers are always brought to one kind. -/
theorem exists_add? (left right : Number) :
    ∃ outcome, left.add? right = some outcome ∧ IsSum left right outcome := by
  obtain ⟨outcome, known, sum⟩ := sumIn_add? left right
  exact ⟨outcome, known, sum.isSum⟩

theorem not_outside_value (number : Whole) : ¬Outside number.width number.value := fun outside =>
  outside_intCast_iff.1 outside number.fits

/-- Two numbers overflow just in case their exact sum lies outside their kind. -/
theorem add?_eq_overflow_iff {left right : Number} :
    left.add? right = some (.error .overflow) ↔
      ∃ width total, sumKind left right = .whole width ∧ ExactSum left right total ∧
        Outside width total := by
  obtain ⟨outcome, known, sum⟩ := exists_add? left right
  rw [known, Option.some.injEq]
  constructor
  · rintro rfl
    cases sum with
    | overflow kind exact outside => exact ⟨_, _, kind, exact, outside⟩
  · rintro ⟨width, total, kind, exact, outside⟩
    cases sum with
    | overflow => rfl
    | @sum number same equal =>
      rw [kind] at same
      cases number <;> cases same
      rw [exact.unique (equal _ rfl)] at outside
      exact absurd outside (not_outside_value _)

/-- Two numbers have a whole sum just in case it is their exact sum and of their kind. -/
theorem add?_eq_whole_iff {left right : Number} {total : Whole} :
    left.add? right = some (.ok (.whole total)) ↔
      sumKind left right = .whole total.width ∧ ExactSum left right total.value := by
  obtain ⟨outcome, known, sum⟩ := exists_add? left right
  rw [known, Option.some.injEq]
  constructor
  · rintro rfl
    cases sum with
    | sum kind exact => exact ⟨kind.symm, exact _ rfl⟩
  · rintro ⟨kind, exact⟩
    cases sum with
    | overflow same equal outside =>
      cases kind.symm.trans same
      rw [equal.unique exact] at outside
      exact absurd outside (not_outside_value total)
    | @sum number same equal =>
      rw [kind] at same
      cases number with
      | whole number =>
        have value : (number.value : ℚ) = total.value := (equal _ rfl).unique exact
        have found : Whole.ofInt? total.width total.value = some number :=
          Whole.ofInt?_eq_some_iff.2 ⟨NumKind.whole.inj same, Int.cast_inj.1 value⟩
        rw [Whole.ofInt?_value] at found
        cases found
        rfl
      | float number => cases same
      | double number => cases same

theorem exactSum_comm (left right : Number) (total : ℚ) :
    ExactSum left right total ↔ ExactSum right left total := by
  have swap {left right : Number} (exact : ExactSum left right total) :
      ExactSum right left total := by
    obtain ⟨x, y, leftKnown, rightKnown, rfl⟩ := exact
    exact ⟨y, x, rightKnown, leftKnown, add_comm y x⟩
  exact ⟨swap, swap⟩

end Number

namespace Value

open Number

variable (heap : Heap) (left right : Number)

theorem add_eq_ok_iff (sum : Number) :
    add heap (.number left) (.number right) = .ok (.number sum) ↔
      left.add? right = some (.ok sum) := by
  obtain ⟨outcome, known, -⟩ := exists_add? left right
  simp only [add, number?, known]
  cases outcome with
  | ok number => simp
  | error fault =>
    cases fault
    simp

theorem add_eq_error_iff :
    add heap (.number left) (.number right) = .error (.overflow left.text right.text) ↔
      left.add? right = some (.error .overflow) := by
  obtain ⟨outcome, known, -⟩ := exists_add? left right
  simp only [add, number?, known]
  cases outcome with
  | ok number => simp
  | error fault =>
    cases fault
    simp

/-- The sum of two numbers is never text.  It is a number of one of the two kinds, of the wider one
if both are whole, and of the same kind in either order.  It overflows just in case this kind is
whole and the exact sum lies outside it; otherwise a whole sum is the exact sum, in either order. -/
theorem add_numbers (heap : Heap) (left right : Number) :
    (sumKind left right = left.kind ∨ sumKind left right = right.kind) ∧
    (left.kind.isWhole ∧ right.kind.isWhole →
      left.kind.widensTo (sumKind left right) ∧ right.kind.widensTo (sumKind left right)) ∧
    ((∃ sum, add heap (.number left) (.number right) = .ok (.number sum) ∧
        sum.kind = sumKind left right ∧
        ∀ integer, sum.integral? = some integer → ExactSum left right integer) ∨
      add heap (.number left) (.number right) = .error (.overflow left.text right.text)) ∧
    (add heap (.number left) (.number right) = .error (.overflow left.text right.text) ↔
      ∃ width total, sumKind left right = .whole width ∧ ExactSum left right total ∧
        Outside width total) ∧
    sumKind right left = sumKind left right ∧
    (add heap (.number right) (.number left) = .error (.overflow right.text left.text) ↔
      add heap (.number left) (.number right) = .error (.overflow left.text right.text)) ∧
    ∀ total : Whole,
      add heap (.number right) (.number left) = .ok (.number (.whole total)) ↔
        add heap (.number left) (.number right) = .ok (.number (.whole total)) := by
  refine ⟨sumKind_mem left right, fun ⟨leftWhole, rightWhole⟩ => ?_, ?_, ?_,
    sumKind_comm right left, ?_, fun total => ?_⟩
  · rw [sumKind_of_isWhole leftWhole rightWhole]
    exact NumKind.widensTo_promote left.kind right.kind
  · obtain ⟨outcome, known, sum⟩ := exists_add? left right
    cases sum with
    | @sum total same exact => exact .inl ⟨total, (add_eq_ok_iff ..).2 known, same, exact⟩
    | overflow => exact .inr ((add_eq_error_iff ..).2 known)
  · exact (add_eq_error_iff ..).trans add?_eq_overflow_iff
  · rw [add_eq_error_iff, add_eq_error_iff, add?_eq_overflow_iff, add?_eq_overflow_iff,
      sumKind_comm]
    simp only [exactSum_comm left]
  · rw [add_eq_ok_iff, add_eq_ok_iff, add?_eq_whole_iff, add?_eq_whole_iff, sumKind_comm,
      exactSum_comm]

/-- The floating number one is added to a whole number that no floating number of 64 bits equals. -/
example : add .empty (.number (.whole ⟨.long, 9007199254740993, by decide⟩))
    (.number (.double ⟨0x3ff0000000000000⟩)) =
      .ok (.number (.whole ⟨.long, 9007199254740994, by decide⟩)) :=
  rfl

end Value

end Colloquy
