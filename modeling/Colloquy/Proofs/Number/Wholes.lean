import Colloquy.Code.Literal
import Colloquy.Proofs.Number.Conversion
import Colloquy.Proofs.Text.Trim
import Colloquy.Proofs.Text.Word
import Colloquy.Value.Sum

/-!
# Whole numbers as literals

The decimal text of a whole number is a literal for that number, in the narrower of two widths that
holds it.  A sum of whole numbers is taken in the wider of their widths.
-/

namespace Colloquy

namespace Reading

/-- The sign that the decimal text of a number begins with. -/
def sign (value : Int) : List Char := if value < 0 then ['-'] else []

/-- The decimal digits of a number without its sign. -/
def digits (value : Int) : List Char := Nat.toDigits 10 value.natAbs

theorem digits_ne_nil (value : Int) : digits value ≠ [] := Nat.toDigits_ne_nil

theorem isDigit_of_mem_digits {value : Int} {c : Char} (member : c ∈ digits value) : c.isDigit :=
  Nat.isDigit_of_mem_toDigits (by decide) (by decide) member

theorem toList_toString (value : Int) : (toString value).toList = sign value ++ digits value := by
  rw [Int.toString_eq_repr, Int.repr_eq_if, sign, digits]
  by_cases negative : value < 0
  · have magnitude : (-value).toNat = value.natAbs := by omega
    rw [if_neg (by omega), if_pos negative, String.toList_append, Nat.toList_repr, magnitude]
    rfl
  · have magnitude : value.toNat = value.natAbs := by omega
    rw [if_pos (by omega), if_neg negative, Nat.toList_repr, magnitude]
    rfl

theorem isDigits_digits (value : Int) : isDigits (digits value) := by
  have all : (digits value).all Char.isDigit :=
    List.all_eq_true.2 fun c member => isDigit_of_mem_digits member
  simp [isDigits, digits_ne_nil, all]

theorem digitsValue_digits (value : Int) : digitsValue (digits value) = value.natAbs :=
  Nat.ofDigitChars_ten_toDigits

theorem splitMinus_digits (value : Int) : splitMinus (digits value) = (false, digits value) := by
  unfold splitMinus
  split
  · rename_i rest begins
    have digit : '-'.isDigit := isDigit_of_mem_digits (by rw [begins]; exact .head _)
    cases digit
  · rfl

/-- A number is read back from its decimal text. -/
theorem whole?_toString (value : Int) : whole? (toString value).toList = some value := by
  rw [toList_toString, whole?, sign]
  by_cases negative : value < 0
  · simp only [negative, if_true, List.singleton_append, splitMinus, isDigits_digits,
      digitsValue_digits, BinaryValue.signed, Option.some.injEq]
    omega
  · simp only [negative, if_false, List.nil_append, splitMinus_digits, isDigits_digits, if_true,
      digitsValue_digits, BinaryValue.signed, Bool.false_eq_true, Option.some.injEq]
    omega

theorem toList_toString_ne_nil (value : Int) : (toString value).toList ≠ [] := by
  rw [toList_toString]
  exact List.append_ne_nil_of_right_ne_nil _ (digits_ne_nil value)

theorem of_mem_toString {value : Int} {c : Char} (member : c ∈ (toString value).toList) :
    c = '-' ∨ c.isDigit := by
  rw [toList_toString] at member
  rcases List.mem_append.1 member with signed | digit
  · unfold sign at signed
    split at signed
    · exact .inl (List.mem_singleton.1 signed)
    · cases signed
  · exact .inr (isDigit_of_mem_digits digit)

theorem not_mem_toString {c : Char} (other : c ≠ '-') (apart : c.isDigit = false) (value : Int) :
    c ∉ (toString value).toList := by
  intro member
  rw [(of_mem_toString member).resolve_left other] at apart
  cases apart

theorem not_isSpacing_of_mem_toString {value : Int} {c : Char}
    (member : c ∈ (toString value).toList) : Text.isSpacing c = false := by
  rcases of_mem_toString member with rfl | digit
  · decide
  · exact Text.not_isSpacing_of_isWordChar (Text.isWordChar_of_isDigit digit)

/-- A decimal text ends with a digit. -/
theorem isDigit_of_getLast? {value : Int} {c : Char}
    (final : c ∈ (toString value).toList.getLast?) : c.isDigit := by
  rw [toList_toString, List.getLast?_append,
    List.getLast?_eq_some_getLast (digits_ne_nil value)] at final
  cases final
  exact isDigit_of_mem_digits (List.getLast_mem _)

/-- A text that ends with a digit does not end with a letter. -/
theorem withoutLetter?_of_isDigit {letter final : Char} (alphabetic : letter.isDigit = false)
    {text : List Char} (last : text.getLast? = some final) (digit : final.isDigit) :
    withoutLetter? letter text = none := by
  rw [withoutLetter?, last]
  dsimp only
  rw [Text.toLower_of_isDigit digit, if_neg]
  rintro rfl
  rw [digit] at alphabetic
  cases alphabetic

theorem withoutLetter?_toString {letter : Char} (alphabetic : letter.isDigit = false)
    (value : Int) : withoutLetter? letter (toString value).toList = none := by
  have last := List.getLast?_eq_some_getLast (toList_toString_ne_nil value)
  exact withoutLetter?_of_isDigit alphabetic last (isDigit_of_getLast? last)

/-- The decimal text of a number is a literal of 32 bits if they hold the number, and of 64 bits
otherwise. -/
theorem number?_toString (value : Int) :
    number? (toString value).toList =
      (Number.ofInt? .int value <|> Number.ofInt? .long value) := by
  rw [number?, withoutLetter?_toString (by decide), whole?_toString]

/-- There are no blanks around a decimal text. -/
theorem trim_toString (value : Int) :
    Text.trim (toString value).toList = (toString value).toList := by
  refine Text.trim_eq_self (fun c first => ?_) fun c final =>
    Text.not_isBlank_of_isDigit (isDigit_of_getLast? final)
  rcases of_mem_toString (List.mem_of_mem_head? first) with rfl | digit
  · decide
  · exact Text.not_isBlank_of_isDigit digit

theorem not_allBlank_toString (value : Int) : Text.allBlank (toString value).toList = false := by
  rw [Bool.eq_false_iff, ne_eq, ← Text.trim_eq_nil_iff, trim_toString]
  exact toList_toString_ne_nil value

end Reading

/-- The width of the literal for a number. -/
def Width.ofLiteral (value : Int) : Width := if Width.int.Holds value then .int else .long

theorem Width.holds_ofLiteral {value : Int} (fits : Width.long.Holds value) :
    (ofLiteral value).Holds value := by
  unfold ofLiteral
  split
  · assumption
  · exact fits

/-- The number that the literal for a number of 64 bits stands for. -/
def Whole.ofLiteral {value : Int} (fits : Width.long.Holds value) : Whole :=
  ⟨.ofLiteral value, value, Width.holds_ofLiteral fits⟩

namespace Literal

theorem read_toString {value : Int} (fits : Width.long.Holds value) :
    Reading.number? (toString value).toList = some (.whole (.ofLiteral fits)) := by
  rw [Reading.number?_toString, Number.ofInt?, Number.ofInt?]
  by_cases narrow : Width.int.Holds value
  · have found : Whole.ofInt? .int value = some (.ofLiteral fits) :=
      Whole.ofInt?_eq_some_iff.2 ⟨if_pos narrow, rfl⟩
    rw [found]
    rfl
  · have found : Whole.ofInt? .long value = some (.ofLiteral fits) :=
      Whole.ofInt?_eq_some_iff.2 ⟨if_neg narrow, rfl⟩
    rw [Whole.ofInt?_eq_none_iff.2 narrow, found]
    rfl

/-- A decimal text is none of the words that end with a letter. -/
theorem toString_ne {word : String} (wordy : word.toList.getLast?.any (!Char.isDigit ·))
    (value : Int) : toString value ≠ word := by
  rintro rfl
  obtain ⟨c, final, letter⟩ := (Option.any_eq_true _ _).1 wordy
  rw [Reading.isDigit_of_getLast? final] at letter
  cases letter

/-- The decimal text of a number stands for that number. -/
theorem ofText_toString {value : Int} (fits : Width.long.Holds value) :
    ofText (toString value) = .number (.whole (.ofLiteral fits)) := by
  rw [ofText, if_neg (toString_ne (by decide) value), if_neg (toString_ne (by decide) value),
    if_neg (toString_ne (by decide) value), read_toString fits]

/-- A decimal text that names no variable has the value that it is written for. -/
theorem resolve_toString {value : Int} (fits : Width.long.Holds value)
    {lookup : String → Option Value} (free : lookup (toString value) = none) :
    resolve lookup (toString value) = some (.number (.whole (.ofLiteral fits))) := by
  have unquoted : unquote? (toString value).toList = none := by
    unfold unquote?
    split
    · rename_i rest begins
      have member : '"' ∈ (toString value).toList := by
        rw [begins]
        exact .head _
      exact absurd member (Reading.not_mem_toString (by decide) (by decide) value)
    · rfl
  rw [resolve, Reading.trim_toString]
  simp only [Reading.toList_toString_ne_nil, if_false, unquoted, String.ofList_toList, free,
    Option.getD_none, ofText_toString fits]

end Literal

namespace Width

/-- The wider of two widths. -/
def wider (left right : Width) : Width :=
  if (NumKind.whole left).widensTo (.whole right) then right else left

theorem promote_whole (left right : Width) :
    NumKind.promote (.whole left) (.whole right) = .whole (left.wider right) := by
  unfold NumKind.promote wider
  split <;> rfl

theorem widensTo_wider (left right : Width) :
    (NumKind.whole left).widensTo (.whole (left.wider right)) ∧
      (NumKind.whole right).widensTo (.whole (left.wider right)) := by
  cases left <;> cases right <;> decide

/-- Two literals have 32 bits together if they both do. -/
theorem wider_ofLiteral (left right : Int) :
    (ofLiteral left).wider (ofLiteral right) =
      if Width.int.Holds left ∧ Width.int.Holds right then .int else .long := by
  by_cases leftNarrow : Width.int.Holds left <;> by_cases rightNarrow : Width.int.Holds right <;>
    simp only [ofLiteral, leftNarrow, rightNarrow, and_self, and_true, true_and, if_true, if_false]
      <;> rfl

end Width

namespace Number

theorem exact_whole {width : Width} {number : Whole} (fits : width.Holds number.value) :
    (whole number).exact (.whole width) = some (whole ⟨width, number.value, fits⟩) := by
  have found : Whole.ofInt? width number.value = some ⟨width, number.value, fits⟩ :=
    Whole.ofInt?_eq_some_iff.2 ⟨rfl, rfl⟩
  simp [exact, long?, ofInt?, found]

/-- Whole numbers are added in the wider of their widths. -/
theorem add?_whole (left right : Whole) :
    (whole left).add? (whole right) =
      some ((ofInt? (left.width.wider right.width) (left.value + right.value)).elim
        (.error .overflow) .ok) := by
  obtain ⟨leftWidens, rightWidens⟩ := left.width.widensTo_wider right.width
  have leftExact := exact_whole (left.fits.widen leftWidens)
  have rightExact := exact_whole (right.fits.widen rightWidens)
  simp only [add?, operands?, both?, kind, Width.promote_whole, leftExact, rightExact]
  exact if_pos rfl

end Number

namespace Value

variable {left right : Whole} (heap : Heap)

theorem text_whole (number : Whole) :
    text heap (.number (.whole number)) = toString number.value := by
  rw [text, textOn]
  rfl

theorem add_of_holds (fits : (left.width.wider right.width).Holds (left.value + right.value)) :
    add heap (.number (.whole left)) (.number (.whole right)) =
      .ok (.number (.whole ⟨_, _, fits⟩)) := by
  have found : Whole.ofInt? (left.width.wider right.width) (left.value + right.value) =
      some ⟨_, _, fits⟩ :=
    Whole.ofInt?_eq_some_iff.2 ⟨rfl, rfl⟩
  simp only [add, number?, Number.add?_whole, Number.ofInt?, found]
  rfl

theorem add_of_not_holds
    (unfit : ¬(left.width.wider right.width).Holds (left.value + right.value)) :
    add heap (.number (.whole left)) (.number (.whole right)) =
      .error (.overflow (toString left.value) (toString right.value)) := by
  simp only [add, number?, Number.add?_whole, Number.ofInt?, Whole.ofInt?_eq_none_iff.2 unfit]
  rfl

end Value

end Colloquy
