import Colloquy.Proofs.Document.Numbering
import Colloquy.Proofs.Document.Scanning
import Colloquy.Proofs.Text.Trim

/-!
# Lines without comments

A comment is cut off just in case two slashes follow a space or a tab.
-/

namespace Colloquy

namespace NumberedLine

open Text (isSpacing)

/-- Two slashes follow a space or a tab somewhere in the text. -/
def Commented (text : List Char) : Prop := ∃ c, isSpacing c ∧ [c, '/', '/'] <:+: text

theorem commented_cons_iff {c : Char} {text : List Char} :
    Commented (c :: text) ↔ (isSpacing c ∧ ['/', '/'] <+: text) ∨ Commented text := by
  simp only [Commented, List.infix_cons_iff, List.cons_prefix_cons, and_or_left, exists_or,
    exists_eq_left, and_left_comm (b := _ = c)]

/-- A comment is found just in case two slashes follow a space or a tab. -/
theorem beforeComment?_eq_none_iff {spaced : Bool} {text : List Char} :
    beforeComment? spaced text = none ↔ ¬(spaced ∧ ['/', '/'] <+: text) ∧ ¬Commented text := by
  fun_induction beforeComment? spaced text with
  | case1 rest => simp
  | case2 spaced rest unspaced ih =>
    have solid : ¬isSpacing '/' := by decide
    simp only [Option.map_eq_none_iff, ih, commented_cons_iff, solid, unspaced, false_and, false_or,
      not_false_eq_true, true_and, Bool.false_eq_true]
  | case3 spaced c rest single ih =>
    have single : ¬['/', '/'] <+: c :: rest := by
      rintro ⟨after, whole⟩
      cases whole
      exact single after rfl rfl
    rw [Option.map_eq_none_iff, ih, commented_cons_iff, not_or]
    exact (and_iff_right fun begins => single begins.2).symm
  | case4 => simp [Commented]

instance : DecidablePred Commented := fun text =>
  decidable_of_iff (beforeComment? false text ≠ none) (by
    rw [ne_eq, beforeComment?_eq_none_iff]
    simp)

theorem prefix_of_beforeComment? {spaced : Bool} {text before : List Char}
    (found : beforeComment? spaced text = some before) : before <+: text := by
  fun_induction beforeComment? spaced text generalizing before with
  | case1 rest =>
    cases found
    exact List.nil_prefix
  | case2 spaced rest unspaced ih =>
    obtain ⟨inner, later, rfl⟩ := Option.map_eq_some_iff.1 found
    simpa using ih later
  | case3 spaced c rest single ih =>
    obtain ⟨inner, later, rfl⟩ := Option.map_eq_some_iff.1 found
    simpa using ih later
  | case4 => cases found

theorem prefix_withoutComment (text : List Char) : withoutComment text <+: text := by
  rw [withoutComment]
  cases found : beforeComment? false text with
  | none => exact List.prefix_rfl
  | some before =>
    exact (Text.trimEnd_prefix before).trans (prefix_of_beforeComment? found)

theorem withoutComment_of_not_commented {text : List Char} (uncommented : ¬Commented text) :
    withoutComment text = text := by
  have none : beforeComment? false text = none := by
    simp [beforeComment?_eq_none_iff, uncommented]
  rw [withoutComment, none]

theorem not_commented_of_not_mem {text : List Char} (absent : '/' ∉ text) : ¬Commented text := by
  rintro ⟨c, -, within⟩
  exact absent (within.subset (by simp))

/-- Text without slashes may stand before a text, if something other than a blank ends it. -/
theorem not_commented_append {front rest : List Char} {mark : Char} (absent : '/' ∉ front)
    (solid : isSpacing mark = false) (other : mark ≠ '/') (uncommented : ¬Commented rest) :
    ¬Commented (front ++ mark :: rest) := by
  induction front with
  | nil =>
    rw [List.nil_append, commented_cons_iff]
    simp [solid, uncommented]
  | cons c front ih =>
    have later : '/' ∉ front := fun member => absent (.tail _ member)
    have next : ¬['/', '/'] <+: front ++ mark :: rest := by
      rintro ⟨after, whole⟩
      cases front with
      | nil => exact other (List.cons.inj whole).1.symm
      | cons d front =>
        obtain ⟨rfl, -⟩ : '/' = d ∧ _ := List.cons.inj whole
        exact later (.head _)
    rw [List.cons_append, commented_cons_iff]
    simp [next, ih later]

/-- A character that is no slash may stand behind a text. -/
theorem not_commented_concat {text : List Char} {mark : Char} (other : mark ≠ '/')
    (uncommented : ¬Commented text) : ¬Commented (text ++ [mark]) := by
  rintro ⟨c, spacing, within⟩
  rcases List.infix_concat_iff.1 within with ends | within
  · obtain ⟨before, whole⟩ := ends
    have final := congrArg List.getLast? whole
    simp at final
    exact other final.symm
  · exact uncommented ⟨c, spacing, within⟩

/-- A line stays as it is if it is no comment and has none, and does not end with a carriage
return. -/
theorem stays_of_shown {text : String} (inLine : '\n' ∉ text.toList)
    (unended : text.toList.getLast? ≠ some '\r') (shown : isComment text.toList = false)
    (uncommented : ¬Commented text.toList) : Stays text := by
  have noReturn : Text.withoutReturn text.toList = text.toList := if_neg unended
  refine ⟨inLine, ?_⟩
  rw [ofSource, List.splitOn_eq_singleton inLine, ofTexts, noReturn, shown,
    withoutComment_of_not_commented uncommented, String.ofList_toList]
  rfl

/-- A line stays as it is if it begins with neither a blank nor a slash, does not end with a
carriage return, and has no comment. -/
theorem stays_of_not_commented {text : String} {first : Char} {rest : List Char}
    (begins : text.toList = first :: rest) (solid : Text.isBlank first = false)
    (other : first ≠ '/') (inLine : '\n' ∉ text.toList) (unended : text.toList.getLast? ≠ some '\r')
    (uncommented : ¬Commented text.toList) : Stays text := by
  have shown : isComment text.toList = false := by
    simp [isComment, begins, Text.trimStart, solid, List.isPrefixOf, other.symm]
  exact stays_of_shown inLine unended shown uncommented

end NumberedLine

end Colloquy
