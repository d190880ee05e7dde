import Mathlib.Data.List.DropRight
import Mathlib.Data.List.TakeWhile
import Colloquy.Text.Blank

/-!
# Trimmed texts

Blanks at either end of a text do not change what is left of it between its blanks.
-/

namespace Colloquy.Text

@[simp]
theorem allBlank_append (left right : List Char) :
    allBlank (left ++ right) = (allBlank left && allBlank right) :=
  List.all_append

theorem trimEnd_eq_rdropWhile (text : List Char) : trimEnd text = text.rdropWhile isBlank := rfl

theorem trimStart_eq_nil_iff {text : List Char} : trimStart text = [] ↔ allBlank text := by
  rw [trimStart, List.dropWhile_eq_nil_iff, allBlank, List.all_eq_true]

theorem trimEnd_eq_nil_iff {text : List Char} : trimEnd text = [] ↔ allBlank text := by
  rw [trimEnd_eq_rdropWhile, List.rdropWhile_eq_nil_iff, allBlank, List.all_eq_true]

theorem trimEnd_prefix (text : List Char) : trimEnd text <+: text :=
  List.rdropWhile_prefix isBlank text

theorem trimStart_append_of_allBlank {blanks : List Char} (blank : allBlank blanks)
    (text : List Char) : trimStart (blanks ++ text) = trimStart text :=
  List.dropWhile_append_of_pos (List.all_eq_true.1 blank)

theorem trimEnd_append_of_allBlank {blanks : List Char} (blank : allBlank blanks)
    (text : List Char) : trimEnd (text ++ blanks) = trimEnd text := by
  have reversed : allBlank blanks.reverse := by simpa [allBlank] using blank
  rw [trimEnd, List.reverse_append, ← trimStart, trimStart_append_of_allBlank reversed]
  rfl

theorem trimStart_append {text : List Char} (solid : allBlank text = false) (rest : List Char) :
    trimStart (text ++ rest) = trimStart text ++ rest := by
  have kept : trimStart text ≠ [] := by simp [trimStart_eq_nil_iff, solid]
  rw [trimStart, List.dropWhile_append, ← trimStart, if_neg (by simpa using kept)]

theorem allBlank_trimStart (text : List Char) : allBlank (trimStart text) = allBlank text := by
  rw [Bool.eq_iff_iff, ← trimStart_eq_nil_iff, ← trimStart_eq_nil_iff]
  rw [trimStart, trimStart, List.dropWhile_idempotent]

theorem trim_eq_nil_iff {text : List Char} : trim text = [] ↔ allBlank text := by
  rw [trim, trimEnd_eq_nil_iff, allBlank_trimStart]

theorem trimStart_eq_self {text : List Char} (first : ∀ c ∈ text.head?, isBlank c = false) :
    trimStart text = text := by
  cases text with
  | nil => rfl
  | cons c rest => simp [trimStart, first c rfl]

theorem trimEnd_eq_self {text : List Char} (final : ∀ c ∈ text.getLast?, isBlank c = false) :
    trimEnd text = text := by
  have started : trimStart text.reverse = text.reverse := trimStart_eq_self (by simpa using final)
  rw [trimStart] at started
  rw [trimEnd, started, List.reverse_reverse]

/-- A text that neither begins nor ends with a blank is not trimmed. -/
theorem trim_eq_self {text : List Char} (first : ∀ c ∈ text.head?, isBlank c = false)
    (final : ∀ c ∈ text.getLast?, isBlank c = false) : trim text = text := by
  rw [trim, trimStart_eq_self first, trimEnd_eq_self final]

/-- What is left before the trailing blanks ends with no blank, and only blanks are behind it. -/
theorem trimEnd_eq_iff {text shown : List Char} :
    trimEnd text = shown ↔ (∀ c ∈ shown.getLast?, isBlank c = false) ∧
      ∃ blanks, allBlank blanks ∧ text = shown ++ blanks := by
  constructor
  · rintro rfl
    constructor
    · intro c final
      obtain ⟨solid, rfl⟩ := List.mem_getLast?_eq_getLast final
      exact Bool.eq_false_iff.2 (List.rdropWhile_last_not isBlank text solid)
    · refine ⟨text.rtakeWhile isBlank, ?_, List.rdropWhile_append_rtakeWhile.symm⟩
      exact List.all_eq_true.2 fun _ => List.mem_rtakeWhile_imp
  · rintro ⟨final, blanks, blank, rfl⟩
    rw [trimEnd_append_of_allBlank blank, trimEnd_eq_self final]

theorem trim_subset (text : List Char) : trim text ⊆ text := by
  intro c member
  have started := (List.dropWhile_suffix isBlank).subset (List.mem_reverse.1 member)
  exact (List.dropWhile_suffix isBlank).subset (List.mem_reverse.1 started)

theorem trim_append_of_allBlank {blanks : List Char} (blank : allBlank blanks)
    (text : List Char) : trim (text ++ blanks) = trim text := by
  cases solid : allBlank text with
  | false => rw [trim, trimStart_append solid, trimEnd_append_of_allBlank blank, trim]
  | true =>
    have both : allBlank (text ++ blanks) := by simp [solid, blank]
    rw [trim_eq_nil_iff.2 both, trim_eq_nil_iff.2 solid]

theorem trim_of_allBlank_append {blanks : List Char} (blank : allBlank blanks)
    (text : List Char) : trim (blanks ++ text) = trim text := by
  rw [trim, trimStart_append_of_allBlank blank, trim]

/-- Between blanks, a text that neither begins nor ends with one is what is left. -/
theorem trim_eq_of_append {before text after : List Char} (blankBefore : allBlank before)
    (blankAfter : allBlank after) (first : ∀ c ∈ text.head?, isBlank c = false)
    (final : ∀ c ∈ text.getLast?, isBlank c = false) : trim (before ++ (text ++ after)) = text := by
  rw [trim_of_allBlank_append blankBefore, trim_append_of_allBlank blankAfter,
    trim_eq_self first final]

end Colloquy.Text
