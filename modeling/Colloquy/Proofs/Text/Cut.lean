import Mathlib.Data.List.Basic
import Colloquy.Text.Cut

/-!
# Runs, cuts and splits

Where a run ends, where a pattern is found in a text, and what a split of a text has.
-/

namespace Colloquy.Text

/-- A run ends where what follows begins otherwise. -/
theorem run_append {α : Type} {belongs : α → Bool} {rest : List α} (front : List α)
    (stops : ∀ first ∈ rest.head?, belongs first = false) :
    (front ++ rest).takeWhile belongs = front.takeWhile belongs ∧
      (front ++ rest).dropWhile belongs = front.dropWhile belongs ++ rest := by
  induction front with
  | nil =>
    cases rest with
    | nil => simp
    | cons first rest => simp [stops first rfl]
  | cons first front ih =>
    obtain ⟨taken, left⟩ := ih
    cases here : belongs first <;> simp [here, taken, left]

theorem run_append_of_all {α : Type} {belongs : α → Bool} {front rest : List α}
    (all : ∀ item ∈ front, belongs item) (stops : ∀ first ∈ rest.head?, belongs first = false) :
    (front ++ rest).takeWhile belongs = front ∧ (front ++ rest).dropWhile belongs = rest := by
  rw [List.takeWhile_append_of_pos all, List.dropWhile_append_of_pos all]
  cases rest with
  | nil => simp
  | cons first rest => simp [stops first rfl]

theorem isPrefixOf?_eq_none_iff {pattern text : List Char} :
    pattern.isPrefixOf? text = none ↔ ¬ pattern <+: text := by
  rw [Option.eq_none_iff_forall_ne_some]
  simp only [ne_eq, List.isPrefixOf?_eq_some_iff_append_eq, List.IsPrefix, not_exists]

/-- A pattern is not found just in case it does not occur. -/
theorem cutAt?_eq_none_iff {pattern text : List Char} :
    cutAt? pattern text = none ↔ ¬ pattern <:+: text := by
  induction text with
  | nil => simp [cutAt?]
  | cons c rest ih =>
    rw [cutAt?, List.infix_cons_iff, not_or, ← List.isPrefixOf_iff_prefix, ← ih]
    cases pattern.isPrefixOf (c :: rest) <;> simp

theorem cutAt?_append {pattern : List Char} (solid : pattern ≠ []) (after : List Char) :
    cutAt? pattern (pattern ++ after) = some ([], after) := by
  obtain ⟨c, rest, rfl⟩ := List.exists_cons_of_ne_nil solid
  rw [List.cons_append, cutAt?, ← List.cons_append,
    if_pos (List.isPrefixOf_iff_prefix.2 (List.prefix_append _ _)), List.drop_left]

/-- A text is cut at a character where the character occurs first. -/
theorem cutAt?_singleton_iff {mark : Char} {text before after : List Char} :
    cutAt? [mark] text = some (before, after) ↔
      text = before ++ mark :: after ∧ mark ∉ before := by
  induction text generalizing before after with
  | nil => simp [cutAt?]
  | cons c rest ih =>
    by_cases same : mark = c
    · subst same
      have here : cutAt? [mark] (mark :: rest) = some ([], rest) :=
        cutAt?_append (by simp) rest
      rw [here]
      constructor
      · intro found
        cases found
        simp
      · rintro ⟨split, absent⟩
        cases before with
        | nil => simpa using split
        | cons d before => simp_all
    · have past : ¬[mark].isPrefixOf (c :: rest) := by simp [same]
      rw [cutAt?, if_neg past]
      simp only [Option.map_eq_some_iff, Prod.exists, ih, Prod.mk.injEq]
      constructor
      · rintro ⟨front, back, ⟨rfl, absent⟩, rfl, rfl⟩
        exact ⟨rfl, by simp [same, absent]⟩
      · rintro ⟨split, absent⟩
        cases before with
        | nil =>
          cases split
          exact absurd rfl same
        | cons d before =>
          cases split
          exact ⟨before, after, ⟨rfl, fun member => absent (.tail _ member)⟩, rfl, rfl⟩

/-- A text is cut at a character of a class where nothing of the class is before it. -/
theorem cutAtFirst?_append {isMark : Char → Bool} {before : List Char} {c : Char}
    (unmarked : ∀ d ∈ before, isMark d = false) (marked : isMark c) (after : List Char) :
    cutAtFirst? isMark (before ++ c :: after) = some (before, after) := by
  obtain ⟨taken, left⟩ := @run_append_of_all _ (fun d => !isMark d) before (c :: after)
    (by simpa using unmarked) (by simpa using marked)
  simp only [cutAtFirst?, taken, left]

/-- A text is cut at the last occurrence of a character if it has any. -/
theorem cutAtLast?_eq_none_iff {mark : Char} {text : List Char} :
    cutAtLast? mark text = none ↔ mark ∉ text := by
  induction text with
  | nil => simp [cutAtLast?]
  | cons c rest ih =>
    rw [cutAtLast?, List.mem_cons, not_or, ← ih]
    cases cutAtLast? mark rest with
    | none => simp [eq_comm]
    | some halves => simp

/-- A text is cut at the last occurrence of a character. -/
theorem cutAtLast?_eq_some_iff {mark : Char} {text before after : List Char} :
    cutAtLast? mark text = some (before, after) ↔
      text = before ++ mark :: after ∧ mark ∉ after := by
  constructor
  · intro found
    induction text generalizing before with
    | nil => cases found
    | cons c rest ih =>
      rw [cutAtLast?] at found
      cases later : cutAtLast? mark rest with
      | some halves =>
        rw [later] at found
        cases found
        obtain ⟨rfl, absent⟩ := ih later
        exact ⟨rfl, absent⟩
      | none =>
        rw [later] at found
        dsimp only at found
        split at found
        · rename_i same
          cases found
          exact ⟨congrArg (· :: after) same, cutAtLast?_eq_none_iff.1 later⟩
        · cases found
  · rintro ⟨rfl, absent⟩
    induction before with
    | nil => simp [cutAtLast?, cutAtLast?_eq_none_iff.2 absent]
    | cons c before ih => rw [List.cons_append, cutAtLast?, ih]

/-- There is no dot behind the last one. -/
theorem not_mem_lastSegment (name : List Char) : '.' ∉ lastSegment name := by
  rw [lastSegment]
  cases cut : cutAtLast? '.' name with
  | none => exact cutAtLast?_eq_none_iff.1 cut
  | some halves => exact (cutAtLast?_eq_some_iff.1 cut).2

/-- A split has one part more than there are separators. -/
theorem length_splitOn (separator : Char) (text : List Char) :
    (text.splitOn separator).length = text.count separator + 1 := by
  induction text with
  | nil => rfl
  | cons c rest ih =>
    rw [List.splitOn_cons_eq_if_modifyHead, List.count_cons]
    split <;> simp [ih]

theorem not_mem_of_mem_splitOn {separator : Char} {text part : List Char}
    (member : part ∈ text.splitOn separator) : separator ∉ part := by
  induction text generalizing part with
  | nil => simp_all
  | cons c rest ih =>
    rw [List.splitOn_cons_eq_if_modifyHead] at member
    split at member
    · rcases List.mem_cons.1 member with rfl | later
      · exact List.not_mem_nil
      · exact ih later
    · rename_i other
      obtain ⟨first, others, parts⟩ :=
        List.exists_cons_of_ne_nil (List.splitOn_ne_nil separator rest)
      rw [parts, List.modifyHead_cons] at member
      rcases List.mem_cons.1 member with rfl | later
      · have apart : separator ∉ first := ih (parts ▸ .head _)
        exact List.not_mem_cons_of_ne_of_not_mem (fun same => other (beq_iff_eq.2 same.symm)) apart
      · exact ih (parts ▸ .tail _ later)

/-- The characters of joined texts are those of the separator and of the texts. -/
theorem mem_intercalate {separator : List Char} {texts : List (List Char)} {c : Char}
    (member : c ∈ separator.intercalate texts) : c ∈ separator ∨ ∃ text ∈ texts, c ∈ text := by
  induction texts with
  | nil => cases member
  | cons text texts ih =>
    cases texts with
    | nil => exact .inr ⟨text, .head _, by simpa using member⟩
    | cons next texts =>
      rw [List.intercalate_cons_cons, List.append_assoc, List.mem_append, List.mem_append] at member
      rcases member with here | between | later
      · exact .inr ⟨text, .head _, here⟩
      · exact .inl between
      · exact (ih later).imp_right fun ⟨other, known, within⟩ => ⟨other, .tail _ known, within⟩

/-- Texts that end each with a separator are the parts, and nothing is left behind the last. -/
theorem splitOn_flatMap {separator : Char} {texts : List (List Char)}
    (absent : ∀ text ∈ texts, separator ∉ text) :
    (texts.flatMap (· ++ [separator])).splitOn separator = texts ++ [[]] := by
  induction texts with
  | nil => rfl
  | cons text texts ih =>
    obtain ⟨here, others⟩ := List.forall_mem_cons.1 absent
    rw [List.flatMap_cons, List.append_assoc, List.singleton_append,
      List.splitOn_append_cons_self_of_not_mem here, ih others]
    rfl

end Colloquy.Text
