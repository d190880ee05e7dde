import Mathlib.Data.List.Chain
import Colloquy.Document.Block

/-!
# Scanning block by block

The blocks of lines are the first block and the blocks of what it leaves.  A blank run and an
interaction take all that belongs to them, so neither is followed by another of its kind.
-/

namespace Colloquy

namespace Block

variable {first : NumberedLine} {lines rest : List NumberedLine} {block : Block}

@[simp]
theorem scan_nil : scan [] = ([], none) := by
  rw [scan]

theorem scan_of_ok (found : next first lines = .ok (block, rest)) :
    scan (first :: lines) = (block :: (scan rest).1, (scan rest).2) := by
  rw [scan]
  split
  · rename_i other known
    rw [found] at known
    cases known
    rfl
  · rename_i known
    rw [found] at known
    cases known

theorem scan_of_error {fault : ParseError} (failed : next first lines = .error fault) :
    scan (first :: lines) = ([], some fault) := by
  rw [scan]
  split
  · rename_i known
    rw [failed] at known
    cases known
  · rename_i known
    rw [failed] at known
    cases known
    rfl

theorem next_of_isBlank (blank : first.isBlank) :
    next first lines = .ok (.blank, lines.dropWhile NumberedLine.isBlank) := by
  rw [next, if_pos blank]

theorem next_of_isPlain (plain : isPlain first) :
    next first lines =
      .ok (.interaction (first :: lines.takeWhile isPlain), lines.dropWhile isPlain) := by
  simp only [isPlain, Bool.and_eq_true, Bool.not_eq_true', bne_iff_ne, ne_eq,
    Option.isNone_iff_eq_none] at plain
  obtain ⟨⟨solid, unmarked⟩, untagged⟩ := plain
  rw [next, if_neg (by simp [solid]), untagged]
  split
  · rename_i tagged
    cases tagged
  · split
    · rename_i marked
      exact absurd (by rw [marked]; rfl) unmarked
    · rfl

theorem next_code (number : Nat) (code : String) :
    next ⟨number, ">" ++ code⟩ lines = .ok (.code ⟨number, code⟩, lines) := by
  have solid : NumberedLine.isBlank ⟨number, ">" ++ code⟩ = false := by
    simp [NumberedLine.isBlank, Text.allBlank, show Text.isBlank '>' = false by decide]
  rw [next, if_neg (by simp [solid])]
  simp [openingTag?]

/-- The first block of a scan is that of its first line. -/
theorem next_of_head_scan (head : block ∈ (scan lines).1.head?) :
    ∃ first others rest, lines = first :: others ∧ next first others = .ok (block, rest) := by
  cases lines with
  | nil => simp at head
  | cons first others =>
    cases found : next first others with
    | error fault =>
      rw [scan_of_error found] at head
      cases head
    | ok result =>
      rw [scan_of_ok found] at head
      cases head
      exact ⟨first, others, result.2, rfl, found⟩

/-- The block is an interaction. -/
def isInteraction : Block → Bool
  | interaction _ => true
  | _ => false

/-- Two blocks are not both blank and not both interactions. -/
structure Apart (first second : Block) : Prop where
  /-- No blank run follows another. -/
  blank : ¬(first = .blank ∧ second = .blank)
  /-- No interaction follows another. -/
  interaction : ¬(first.isInteraction ∧ second.isInteraction)

instance (first second : Block) : Decidable (Apart first second) :=
  decidable_of_iff
    (¬(first = .blank ∧ second = .blank) ∧ ¬(first.isInteraction ∧ second.isInteraction))
    ⟨fun apart => ⟨apart.1, apart.2⟩, fun apart => ⟨apart.1, apart.2⟩⟩

theorem next_blank (found : next first lines = .ok (.blank, rest)) :
    first.isBlank ∧ rest = lines.dropWhile NumberedLine.isBlank := by
  unfold next at found
  split at found
  · rename_i blank
    cases found
    exact ⟨blank, rfl⟩
  · split at found
    · split at found <;> cases found
    · split at found <;> cases found

theorem next_interaction {taken : List NumberedLine}
    (found : next first lines = .ok (.interaction taken, rest)) :
    isPlain first ∧ rest = lines.dropWhile isPlain := by
  unfold next at found
  split at found
  · cases found
  · rename_i solid
    split at found
    · split at found <;> cases found
    · rename_i untagged
      split at found
      · cases found
      · rename_i unmarked
        cases found
        refine ⟨?_, rfl⟩
        have unmarked : first.text.toList.head? ≠ some '>' := by
          intro marked
          obtain ⟨after, text⟩ := List.head?_eq_some_iff.1 marked
          exact unmarked after text
        simp [isPlain, solid, untagged, unmarked]

theorem not_of_head_dropWhile {skip : NumberedLine → Bool}
    (dropped : lines.dropWhile skip = first :: rest) : skip first = false := by
  have head := List.head?_dropWhile_not skip lines
  rwa [dropped] at head

/-- The block that a scan begins with after another block stands apart from it. -/
theorem apart_of_next {second : NumberedLine} {later : Block} {others left : List NumberedLine}
    (found : next first lines = .ok (block, second :: others))
    (follows : next second others = .ok (later, left)) : block.Apart later where
  blank := by
    rintro ⟨rfl, rfl⟩
    have solid := not_of_head_dropWhile (next_blank found).2.symm
    rw [(next_blank follows).1] at solid
    cases solid
  interaction := by
    rintro ⟨here, there⟩
    cases block with
    | interaction =>
      cases later with
      | interaction =>
        have ended := not_of_head_dropWhile (next_interaction found).2.symm
        rw [(next_interaction follows).1] at ended
        cases ended
      | tagged | code | blank => cases there
    | tagged | code | blank => cases here

/-- Blocks that follow each other stand apart. -/
theorem apart_scan (lines : List NumberedLine) : (scan lines).1.IsChain Apart := by
  induction lines using scan.induct with
  | case1 =>
    rw [scan_nil]
    exact .nil
  | case2 first lines block rest found blocks fault scanned ih =>
    rw [scan_of_ok found, List.isChain_cons]
    refine ⟨fun later head => ?_, ih⟩
    obtain ⟨second, others, left, rfl, follows⟩ := next_of_head_scan head
    exact apart_of_next found follows
  | case3 first lines fault failed =>
    rw [scan_of_error failed]
    exact .nil

end Block

end Colloquy
