import Mathlib.Data.List.Basic
import Colloquy.Proofs.Number.Conversion
import Colloquy.Proofs.Number.Wholes
import Colloquy.Proofs.Text.Cut

/-!
# The grammar of number literals

A text is a number literal just in case it is an integer, or a decimal fraction, with one of the
letters that name a kind behind it or none.  The kind and the letter fix how the number is kept.
-/

namespace Colloquy.Reading

/-- The minus sign of a negative number. -/
def minus (negative : Bool) : List Char := if negative then ['-'] else []

/-- The text is one or more decimal digits. -/
def Digits (text : List Char) : Prop := text ≠ [] ∧ ∀ c ∈ text, c.isDigit

/-- The text is an integer: digits behind an optional minus sign. -/
def Integer (text : List Char) (value : Int) : Prop :=
  ∃ negative digits, Digits digits ∧ text = minus negative ++ digits ∧
    value = BinaryValue.signed negative (Nat.ofDigitChars 10 digits 0)

/-- The text is a decimal fraction: digits on both sides of a point, behind an optional minus
sign. -/
def Decimal (text : List Char) (fraction : Fraction) : Prop :=
  ∃ negative before after, Digits before ∧ Digits after ∧
    text = minus negative ++ before ++ '.' :: after ∧
    fraction = ⟨negative, Nat.ofDigitChars 10 (before ++ after) 0, -after.length⟩

theorem isDigits_iff {text : List Char} : isDigits text ↔ Digits text := by
  simp [isDigits, Digits]

theorem Digits.not_minus {text : List Char} (digits : Digits text) : text.head? ≠ some '-' := by
  intro first
  cases digits.2 '-' (List.mem_of_mem_head? first)

theorem splitMinus_minus {negative : Bool} {rest : List Char} (unsigned : rest.head? ≠ some '-') :
    splitMinus (minus negative ++ rest) = (negative, rest) := by
  cases negative with
  | true => rfl
  | false =>
    change splitMinus rest = (false, rest)
    unfold splitMinus
    split
    · exact absurd rfl unsigned
    · rfl

theorem eq_minus_append (text : List Char) :
    text = minus (splitMinus text).1 ++ (splitMinus text).2 := by
  unfold splitMinus
  split <;> rfl

theorem whole?_eq_some_iff {text : List Char} {value : Int} :
    whole? text = some value ↔ Integer text value := by
  constructor
  · intro found
    obtain ⟨digits, same⟩ := Option.ite_none_right_eq_some.1 found
    exact ⟨_, _, isDigits_iff.1 digits, eq_minus_append text, (Option.some.inj same).symm⟩
  · rintro ⟨negative, digits, solid, rfl, rfl⟩
    rw [whole?, splitMinus_minus solid.not_minus]
    exact if_pos (isDigits_iff.2 solid)

theorem Digits.not_point {text : List Char} (digits : Digits text) : '.' ∉ text := by
  intro member
  cases digits.2 '.' member

theorem fraction?_eq_some_iff {text : List Char} {fraction : Fraction} :
    fraction? text = some fraction ↔ Decimal text fraction := by
  have sides (negative : Bool) (before after : List Char) :
      Fraction.ofSides negative before after 0 =
        ⟨negative, Nat.ofDigitChars 10 (before ++ after) 0, -after.length⟩ := by
    rw [Fraction.ofSides, Int.zero_sub]
    rfl
  constructor
  · intro found
    unfold fraction? at found
    dsimp only at found
    split at found
    · rename_i before after cut
      obtain ⟨digits, same⟩ := Option.ite_none_right_eq_some.1 found
      obtain ⟨left, right⟩ := Bool.and_eq_true_iff.1 digits
      obtain ⟨shape, -⟩ := Text.cutAt?_singleton_iff.1 cut
      refine ⟨_, before, after, isDigits_iff.1 left, isDigits_iff.1 right, ?_,
        (Option.some.inj same).symm.trans (sides _ _ _)⟩
      rw [List.append_assoc, ← shape]
      exact eq_minus_append text
    · cases found
  · rintro ⟨negative, before, after, left, right, rfl, rfl⟩
    have unsigned : (before ++ '.' :: after).head? ≠ some '-' := by
      obtain ⟨c, rest, rfl⟩ := List.exists_cons_of_ne_nil left.1
      exact left.not_minus
    have cut : Text.cutAt? ['.'] (before ++ '.' :: after) = some (before, after) :=
      Text.cutAt?_singleton_iff.2 ⟨rfl, left.not_point⟩
    rw [fraction?, List.append_assoc, splitMinus_minus unsigned]
    dsimp only
    rw [cut]
    simp [isDigits_iff.2 left, isDigits_iff.2 right, sides]

/-- A lower-case letter is that of itself and of the letter in upper case. -/
theorem toLower_eq_iff {c lower upper : Char} (small : lower.isUpper = false)
    (capital : upper.isUpper) (apart : lower.toNat = upper.toNat + 32) :
    c.toLower = lower ↔ c = lower ∨ c = upper := by
  constructor
  · intro same
    cases large : c.isUpper with
    | true =>
      have distance := Text.toNat_toLower_of_isUpper large
      rw [same] at distance
      exact .inr (Char.toNat_inj.1 (by omega))
    | false =>
      rw [Text.toLower_of_not_isUpper (by simp [large])] at same
      exact .inl same
  · rintro (rfl | rfl)
    · exact Text.toLower_of_not_isUpper (by simp [small])
    · exact Char.toNat_inj.1 ((Text.toNat_toLower_of_isUpper capital).trans apart.symm)

theorem withoutLetter?_eq_some_iff {letter : Char} {text front : List Char} :
    withoutLetter? letter text = some front ↔ ∃ c, text = front ++ [c] ∧ c.toLower = letter := by
  constructor
  · intro found
    unfold withoutLetter? at found
    split at found
    · rename_i final last
      obtain ⟨same, rest⟩ := Option.ite_none_right_eq_some.1 found
      cases rest
      exact ⟨final, (List.dropLast_append_getLast? final last).symm, same⟩
    · cases found
  · rintro ⟨c, rfl, same⟩
    simp [withoutLetter?, same]

/-- The text ends with a letter behind another text. -/
def Suffixed (text front : List Char) (lower upper : Char) : Prop :=
  text = front ++ [lower] ∨ text = front ++ [upper]

theorem suffixed_iff {text front : List Char} {lower upper : Char}
    (letters : lower.isUpper = false ∧ upper.isUpper ∧ lower.toNat = upper.toNat + 32) :
    withoutLetter? lower text = some front ↔ Suffixed text front lower upper := by
  obtain ⟨small, capital, apart⟩ := letters
  rw [withoutLetter?_eq_some_iff, Suffixed]
  simp only [toLower_eq_iff small capital apart]
  constructor
  · rintro ⟨c, rfl, rfl | rfl⟩
    · exact .inl rfl
    · exact .inr rfl
  · rintro (rfl | rfl)
    · exact ⟨lower, rfl, .inl rfl⟩
    · exact ⟨upper, rfl, .inr rfl⟩

theorem Suffixed.withoutLetter? {text front : List Char} {lower upper : Char}
    (letter : Suffixed text front lower upper) (other : Char) (apart : lower.toLower ≠ other)
    (apartToo : upper.toLower ≠ other) : withoutLetter? other text = none := by
  rcases letter with rfl | rfl <;> simp [Reading.withoutLetter?, apart, apartToo]

theorem Suffixed.last {text front : List Char} {lower upper : Char}
    (letter : Suffixed text front lower upper) :
    text.getLast? = some lower ∨ text.getLast? = some upper := by
  rcases letter with rfl | rfl <;> simp

theorem Digits.last {text : List Char} (digits : Digits text) :
    ∃ c, text.getLast? = some c ∧ c.isDigit :=
  ⟨_, List.getLast?_eq_some_getLast digits.1, digits.2 _ (List.getLast_mem _)⟩

/-- An integer ends with a digit. -/
theorem Integer.last {text : List Char} {value : Int} (written : Integer text value) :
    ∃ c, text.getLast? = some c ∧ c.isDigit := by
  obtain ⟨negative, digits, solid, rfl, -⟩ := written
  obtain ⟨c, final, digit⟩ := solid.last
  exact ⟨c, by rw [List.getLast?_append, final]; rfl, digit⟩

/-- A decimal fraction ends with a digit. -/
theorem Decimal.last {text : List Char} {fraction : Fraction} (written : Decimal text fraction) :
    ∃ c, text.getLast? = some c ∧ c.isDigit := by
  obtain ⟨negative, before, after, -, solid, rfl, -⟩ := written
  obtain ⟨c, final, digit⟩ := solid.last
  exact ⟨c, by rw [List.getLast?_append, List.getLast?_cons, final]; rfl, digit⟩

theorem Integer.withoutLetter? {text : List Char} {value : Int} (written : Integer text value)
    (letter : Char) (alphabetic : letter.isDigit = false) :
    withoutLetter? letter text = none := by
  obtain ⟨c, last, digit⟩ := written.last
  exact withoutLetter?_of_isDigit alphabetic last digit

theorem Decimal.withoutLetter? {text : List Char} {fraction : Fraction}
    (written : Decimal text fraction) (letter : Char) (alphabetic : letter.isDigit = false) :
    withoutLetter? letter text = none := by
  obtain ⟨c, last, digit⟩ := written.last
  exact withoutLetter?_of_isDigit alphabetic last digit

theorem Integer.not_point {text : List Char} {value : Int} (written : Integer text value) :
    '.' ∉ text := by
  obtain ⟨negative, digits, solid, rfl, -⟩ := written
  rw [List.mem_append, not_or]
  exact ⟨by cases negative <;> decide, solid.not_point⟩

/-- A decimal fraction is no integer. -/
theorem Decimal.whole? {text : List Char} {fraction : Fraction} (written : Decimal text fraction) :
    whole? text = none := by
  rw [Option.eq_none_iff_forall_ne_some]
  intro value found
  obtain ⟨negative, before, after, -, -, rfl, -⟩ := written
  exact (whole?_eq_some_iff.1 found).not_point (by simp)

/-- A text with a letter at its end is no integer. -/
theorem Suffixed.whole? {text front : List Char} {lower upper : Char}
    (letter : Suffixed text front lower upper) (small : lower.isDigit = false)
    (capital : upper.isDigit = false) : whole? text = none := by
  rw [Option.eq_none_iff_forall_ne_some]
  intro value found
  obtain ⟨c, final, digit⟩ := (whole?_eq_some_iff.1 found).last
  rcases letter.last with last | last <;> cases final.symm.trans last
  · rw [small] at digit
    cases digit
  · rw [capital] at digit
    cases digit

/-- The literals of numbers. -/
inductive Numeral : List Char → Number → Prop where
  | int {text : List Char} {value : Int} (written : Integer text value)
    (fits : Width.int.Holds value) : Numeral text (.whole ⟨.int, value, fits⟩)
  | long {text : List Char} {value : Int} (written : Integer text value)
    (wide : ¬Width.int.Holds value) (fits : Width.long.Holds value) :
    Numeral text (.whole ⟨.long, value, fits⟩)
  | suffixedLong {text front : List Char} {value : Int} (letter : Suffixed text front 'l' 'L')
    (written : Integer front value) (fits : Width.long.Holds value) :
    Numeral text (.whole ⟨.long, value, fits⟩)
  | suffixedFloat {text front : List Char} {fraction : Fraction}
    (letter : Suffixed text front 'f' 'F') (written : Decimal front fraction) :
    Numeral text (.float fraction.toSingle)
  | double {text : List Char} {fraction : Fraction} (written : Decimal text fraction) :
    Numeral text (.double fraction.toDouble)
  | suffixedDouble {text front : List Char} {fraction : Fraction}
    (letter : Suffixed text front 'd' 'D') (written : Decimal front fraction) :
    Numeral text (.double fraction.toDouble)

/-- A literal that is read is one of the grammar.  The cases are those of the reader. -/
theorem numeral_of_number? {text : List Char} {number : Number}
    (read : number? text = some number) : Numeral text number := by
  unfold number? at read
  split at read
  · rename_i front letter
    obtain ⟨value, written, held⟩ := Option.bind_eq_some_iff.1 read
    obtain ⟨fits, rfl⟩ := Number.ofInt?_eq_some_iff.1 held
    exact .suffixedLong ((suffixed_iff (by decide)).1 letter) (whole?_eq_some_iff.1 written) fits
  · split at read
    · rename_i value written
      cases narrow : Number.ofInt? .int value with
      | some whole =>
        rw [narrow] at read
        cases read
        obtain ⟨fits, rfl⟩ := Number.ofInt?_eq_some_iff.1 narrow
        exact .int (whole?_eq_some_iff.1 written) fits
      | none =>
        rw [narrow] at read
        obtain ⟨fits, rfl⟩ := Number.ofInt?_eq_some_iff.1 read
        exact .long (whole?_eq_some_iff.1 written) (Number.ofInt?_eq_none_iff.1 narrow) fits
    · split at read
      · rename_i front letter
        obtain ⟨fraction, written, rfl⟩ := Option.map_eq_some_iff.1 read
        exact .suffixedFloat ((suffixed_iff (by decide)).1 letter)
          (fraction?_eq_some_iff.1 written)
      · obtain ⟨fraction, written, rfl⟩ := Option.map_eq_some_iff.1 read
        cases letter : withoutLetter? 'd' text with
        | some front =>
          rw [letter] at written
          exact .suffixedDouble ((suffixed_iff (by decide)).1 letter)
            (fraction?_eq_some_iff.1 written)
        | none =>
          rw [letter] at written
          exact .double (fraction?_eq_some_iff.1 written)

theorem number?_of_integer {text : List Char} {value : Int} (written : Integer text value) :
    number? text = (Number.ofInt? .int value <|> Number.ofInt? .long value) := by
  simp only [number?, written.withoutLetter? 'l' rfl, whole?_eq_some_iff.2 written]

/-- A literal of the grammar is read, and as the number that the grammar gives it. -/
theorem number?_of_numeral {text : List Char} {number : Number} (numeral : Numeral text number) :
    number? text = some number := by
  cases numeral with
  | int written fits =>
    rw [number?_of_integer written, Number.ofInt?_eq_some_iff.2 ⟨fits, rfl⟩]
    rfl
  | long written wide fits =>
    rw [number?_of_integer written, Number.ofInt?_eq_none_iff.2 wide]
    exact Number.ofInt?_eq_some_iff.2 ⟨fits, rfl⟩
  | suffixedLong letter written fits =>
    simp only [number?, (suffixed_iff (by decide)).2 letter, whole?_eq_some_iff.2 written]
    exact Number.ofInt?_eq_some_iff.2 ⟨fits, rfl⟩
  | suffixedFloat letter written =>
    have marked := (suffixed_iff (by decide)).2 letter
    have unmarked := letter.withoutLetter? 'l' (by decide) (by decide)
    simp only [number?, unmarked, letter.whole? rfl rfl, marked, fraction?_eq_some_iff.2 written,
      Option.map_some]
  | double written =>
    simp only [number?, written.withoutLetter? 'l' rfl, written.whole?,
      written.withoutLetter? 'f' rfl, written.withoutLetter? 'd' rfl, Option.getD_none,
      fraction?_eq_some_iff.2 written, Option.map_some]
  | suffixedDouble letter written =>
    have marked := (suffixed_iff (by decide)).2 letter
    have long := letter.withoutLetter? 'l' (by decide) (by decide)
    have single := letter.withoutLetter? 'f' (by decide) (by decide)
    simp only [number?, long, letter.whole? rfl rfl, single, marked, Option.getD_some,
      fraction?_eq_some_iff.2 written, Option.map_some]

/-- The printed text of a whole number is an integer. -/
theorem integer_text (heap : Heap) (number : Whole) :
    Integer (Value.text heap (.number (.whole number))).toList number.value := by
  rw [Value.text_whole]
  exact whole?_eq_some_iff.1 (whole?_toString number.value)

/-- A text is read as a number just in case the grammar has it as a literal of that number.  Thus
each number of 32 bits is read back from its printed text, and each number of 64 bits from that
with an `L` behind it. -/
theorem number?_grammar :
    (∀ text number, number? text = some number ↔ Numeral text number) ∧
      (∀ heap (number : Whole), number.width = .int →
        number? (Value.text heap (.number (.whole number))).toList = some (.whole number)) ∧
      ∀ heap (number : Whole), number.width = .long →
        number? (Value.text heap (.number (.whole number)) ++ "L").toList =
          some (.whole number) := by
  refine ⟨fun text number => ⟨numeral_of_number?, number?_of_numeral⟩, ?_, ?_⟩
  · rintro heap ⟨width, value, fits⟩ rfl
    exact number?_of_numeral (.int (integer_text heap ⟨.int, value, fits⟩) fits)
  · rintro heap ⟨width, value, fits⟩ rfl
    have written := integer_text heap ⟨.long, value, fits⟩
    exact number?_of_numeral (.suffixedLong (.inr String.toList_append) written fits)

/-- The least number of 32 bits is one of them, and its magnitude needs 64.  A number of 64 bits is
read back with its suffix. -/
theorem number?_grammar_limits :
    number? "-2147483648".toList = some (.whole ⟨.int, -2147483648, by decide⟩) ∧
      number? "2147483648".toList = some (.whole ⟨.long, 2147483648, by decide⟩) ∧
      number? (Value.text .empty (.number (.whole ⟨.int, 7, by decide⟩))).toList =
        some (.whole ⟨.int, 7, by decide⟩) ∧
      number? (Value.text .empty (.number (.whole ⟨.long, 7, by decide⟩)) ++ "L").toList =
        some (.whole ⟨.long, 7, by decide⟩) := by
  have least : Integer "-2147483648".toList (-2147483648) :=
    ⟨true, "2147483648".toList, isDigits_iff.1 rfl, rfl, rfl⟩
  have beyond : Integer "2147483648".toList 2147483648 :=
    ⟨false, "2147483648".toList, isDigits_iff.1 rfl, rfl, rfl⟩
  exact ⟨(number?_grammar.1 _ _).2 (.int least (by decide)),
    (number?_grammar.1 _ _).2 (.long beyond (by decide) (by decide)),
    number?_grammar.2.1 .empty ⟨.int, 7, by decide⟩ rfl,
    number?_grammar.2.2 .empty ⟨.long, 7, by decide⟩ rfl⟩

end Colloquy.Reading
