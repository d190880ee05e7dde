import Colloquy.Proofs.Code.Location
import Colloquy.Proofs.Document.Numbering
import Colloquy.Proofs.Document.Scanning

/-!
# Scanning in pieces

But for their blank runs, the blocks of lines with a blank line between them are those of the lines
before it and then those of the lines after it.  Lines further down have the same blocks, further
down.
-/

namespace Colloquy

namespace Block

open NumberedLine (isBlank_lowered)

variable {first : NumberedLine} {lines rest : List NumberedLine} {block : Block}

/-- The block a number of lines further down. -/
def lowered (count : Nat) : Block → Block
  | tagged id args body line => tagged id args (body.map (·.lowered count)) (line + count)
  | code line => code (line.lowered count)
  | interaction lines => interaction (lines.map (·.lowered count))
  | blank => blank

theorem fragment_lowered (number count : Nat) (text : List Char) :
    fragment (number + count) text = (fragment number text).map (·.lowered count) := by
  unfold fragment
  split <;> rfl

theorem body?_lowered (count : Nat) (closing : List Char) (onTagLine : Bool)
    (current : NumberedLine) (lines : List NumberedLine) :
    body? closing onTagLine (current.lowered count) (lines.map (·.lowered count)) =
      (body? closing onTagLine current lines).map fun (body, rest) =>
        (body.map (·.lowered count), rest.map (·.lowered count)) := by
  induction lines generalizing onTagLine current with
  | nil =>
    unfold body?
    rw [NumberedLine.text_lowered]
    cases cutAtClosing? closing current.text.toList with
    | none => rfl
    | some parts => simp [fragment_lowered, NumberedLine.lowered]
  | cons next lines ih =>
    unfold body?
    rw [NumberedLine.text_lowered]
    cases cutAtClosing? closing current.text.toList with
    | none =>
      simp only [List.map_cons, ih false next, Option.map_map, isBlank_lowered]
      congr 1
      funext result
      by_cases skipped : (onTagLine && current.isBlank) = true <;> simp [skipped]
    | some parts => simp [fragment_lowered, NumberedLine.lowered]

theorem next_lowered (count : Nat) (first : NumberedLine) (lines : List NumberedLine) :
    next (first.lowered count) (lines.map (·.lowered count)) =
      ((next first lines).map fun (block, rest) =>
        (block.lowered count, rest.map (·.lowered count))).mapError
          (ParseError.mapLine (· + count)) := by
  simp only [next, isBlank_lowered, NumberedLine.text_lowered, List.dropWhile_map,
    List.takeWhile_map]
  split
  · rfl
  · split
    · rename_i tag after opened
      have further := body?_lowered count (closingTag tag.id) true
        ⟨first.number, String.ofList after⟩ lines
      simp only [NumberedLine.lowered] at further ⊢
      rw [further]
      cases body? (closingTag tag.id) true ⟨first.number, String.ofList after⟩ lines <;> rfl
    · split <;> rfl

/-- Lines further down are scanned alike, further down. -/
theorem scan_lowered (count : Nat) (lines : List NumberedLine) :
    scan (lines.map (·.lowered count)) =
      ((scan lines).1.map (lowered count),
        (scan lines).2.map (ParseError.mapLine (· + count))) := by
  induction lines using scan.induct with
  | case1 => simp
  | case2 first lines block rest found blocks fault scanned ih =>
    have further := next_lowered count first lines
    rw [found] at further
    rw [List.map_cons, scan_of_ok further, scan_of_ok found, ih]
    rfl
  | case3 first lines fault failed =>
    have further := next_lowered count first lines
    rw [failed] at further
    rw [List.map_cons, scan_of_error further, scan_of_error failed]
    rfl

/-- The blocks of lines without the blank runs, and the error if there is one. -/
def outline (lines : List NumberedLine) : List Block × Option ParseError :=
  ((scan lines).1.filter (· ≠ blank), (scan lines).2)

theorem outline_lowered (count : Nat) (lines : List NumberedLine) :
    outline (lines.map (·.lowered count)) =
      ((outline lines).1.map (lowered count),
        (outline lines).2.map (ParseError.mapLine (· + count))) := by
  have same (block : Block) : block.lowered count = blank ↔ block = blank := by
    cases block <;> simp [lowered]
  simp [outline, scan_lowered, List.filter_map, Function.comp_def, same]

theorem outline_of_ok (solid : first.isBlank = false)
    (found : next first lines = .ok (block, rest)) :
    outline (first :: lines) = (block :: (outline rest).1, (outline rest).2) := by
  have kept : block ≠ blank := by
    rintro rfl
    rw [(next_blank found).1] at solid
    cases solid
  simp [outline, scan_of_ok found, kept]

theorem outline_blankRun (blank : first.isBlank) :
    outline (first :: lines) = outline (lines.dropWhile NumberedLine.isBlank) := by
  simp [outline, scan_of_ok (next_of_isBlank blank)]

/-- A blank line between blocks does not count. -/
theorem outline_of_isBlank (blank : first.isBlank) : outline (first :: lines) = outline lines := by
  rw [outline_blankRun blank]
  cases lines with
  | nil => rfl
  | cons second lines =>
    cases blankNext : second.isBlank with
    | false => rw [List.dropWhile_cons_of_neg (by simp [blankNext])]
    | true => rw [List.dropWhile_cons_of_pos blankNext, outline_blankRun blankNext]

theorem outline_dropWhile (front lines : List NumberedLine) :
    outline (front.dropWhile NumberedLine.isBlank ++ lines) = outline (front ++ lines) := by
  induction front with
  | nil => rfl
  | cons line front ih =>
    rw [List.dropWhile_cons]
    split
    · rename_i blank
      rw [ih, List.cons_append, outline_of_isBlank blank]
    · rfl

theorem body?_append {closing : List Char} {onTagLine : Bool} {current : NumberedLine}
    {body : List NumberedLine} (closes : body? closing onTagLine current lines = some (body, rest))
    (more : List NumberedLine) :
    body? closing onTagLine current (lines ++ more) = some (body, rest ++ more) := by
  induction lines generalizing onTagLine current body with
  | nil =>
    unfold body? at closes ⊢
    split at closes
    · cases closes
      simp
    · cases closes
  | cons next lines ih =>
    unfold body? at closes ⊢
    split at closes
    · cases closes
      simp
    · obtain ⟨⟨inner, _⟩, closes, same⟩ := Option.map_eq_some_iff.1 closes
      cases same
      simp [ih closes]

/-- A block that is not blank ends in front of a blank line. -/
theorem next_append (solid : first.isBlank = false) (found : next first lines = .ok (block, rest))
    {line : NumberedLine} (blank : line.isBlank) (more : List NumberedLine) :
    next first (lines ++ line :: more) = .ok (block, rest ++ line :: more) := by
  have unplain : isPlain line = false := by simp [isPlain, blank]
  have stops : ∀ other ∈ (line :: more).head?, isPlain other = false := by simp [unplain]
  obtain ⟨taken, left⟩ := Text.run_append lines stops
  rw [next, if_neg (by simp [solid])] at found ⊢
  split at found
  · split at found
    · rename_i closes
      cases found
      rw [body?_append closes]
    · cases found
  · rw [taken, left]
    split at found
    · cases found
      rfl
    · cases found
      rfl

/-- The blocks before a blank line and those after it are all of the blocks. -/
theorem outline_append (sound : (scan lines).2 = none) {line : NumberedLine}
    (blank : line.isBlank) (more : List NumberedLine) :
    outline (lines ++ line :: more) =
      ((outline lines).1 ++ (outline more).1, (outline more).2) := by
  induction lines using scan.induct with
  | case1 =>
    rw [List.nil_append, outline_of_isBlank blank]
    simp [outline]
  | case2 first lines block rest found blocks fault scanned ih =>
    rw [scan_of_ok found] at sound
    have later := ih sound
    rw [List.cons_append]
    cases blankFirst : first.isBlank with
    | false =>
      rw [outline_of_ok blankFirst found,
        outline_of_ok blankFirst (next_append blankFirst found blank more), later]
      rfl
    | true =>
      -- the blank run may take the blank line behind it and more, which the outline does not see
      rw [next_of_isBlank blankFirst] at found
      cases found
      rw [outline_of_isBlank blankFirst, outline_blankRun blankFirst, ← outline_dropWhile, later]
  | case3 first lines fault failed =>
    rw [scan_of_error failed] at sound
    cases sound

end Block

end Colloquy
