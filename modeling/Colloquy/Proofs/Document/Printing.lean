import Colloquy.Proofs.Document.Numbering
import Colloquy.Proofs.Document.Scanning
import Colloquy.Proofs.Document.Tags
import Colloquy.Proofs.Text.Word

/-!
# Printed blocks

Blocks that are printed line by line are read back as they were, each on the lines that it was
printed on.
-/

namespace Colloquy

namespace Block

open NumberedLine (numbered numbered_nil numbered_cons numbered_append)

/-- The lines that a block is printed on. -/
def printed : Block → List String
  | tagged id args body _ =>
    String.ofList (Tag.written ⟨id.toList, args.map String.toList⟩) :: body.map (·.text)
      ++ [String.ofList (closingTag id.toList)]
  | code line => [">" ++ line.text]
  | interaction lines => lines.map (·.text)
  | blank => [""]

/-- The block with the numbers of its lines if it is printed from a line on. -/
def placed (number : Nat) : Block → Block
  | tagged id args body _ => tagged id args (numbered (number + 1) (body.map (·.text))) number
  | code line => code ⟨number, line.text⟩
  | interaction lines => interaction (numbered number (lines.map (·.text)))
  | blank => blank

/-- Blocks with the numbers of their lines if they are printed one after another. -/
def placedAll (number : Nat) : List Block → List Block
  | [] => []
  | block :: rest => block.placed number :: placedAll (number + block.printed.length) rest

@[simp]
theorem isInteraction_placed (number : Nat) (block : Block) :
    (block.placed number).isInteraction = block.isInteraction := by
  cases block <;> rfl

@[simp]
theorem placed_eq_blank_iff {number : Nat} {block : Block} :
    block.placed number = blank ↔ block = blank := by
  cases block <;> simp [placed]

/-- A character of a block name in lower case. -/
def isLowerIdChar (c : Char) : Bool := c.isLower || c.isDigit || c == '_' || c == '-'

/-- The block can be told from its print: its name is in lower case, its arguments do not end its
tag, its body does not close it, and a line of an interaction begins nothing else. -/
def Canonical : Block → Prop
  | tagged id args body _ =>
    (id.toList.headD ' ').isLower ∧ id.toList.all isLowerIdChar ∧
      (∀ text ∈ args, '>' ∉ text.toList) ∧
      ∀ line ∈ body, ¬ closingTag id.toList <:+: lower line.text.toList
  | interaction lines =>
    lines ≠ [] ∧ ∀ line ∈ lines, line.isBlank = false ∧ line.text.toList.head? ≠ some '>' ∧
      ∀ tag : Tag, tag.WellFormed → ¬ tag.written <+: line.text.toList
  | code _ | blank => True

instance : DecidablePred Canonical
  | tagged _ _ _ _ => inferInstanceAs (Decidable (_ ∧ _ ∧ _ ∧ _))
  | interaction lines =>
    decidable_of_iff
      (lines ≠ [] ∧ ∀ line ∈ lines, line.isBlank = false ∧ line.text.toList.head? ≠ some '>' ∧
        openingTag? line.text.toList = none)
      (by simp only [Canonical, openingTag?_eq_none_iff])
  | code _ | blank => .isTrue trivial

theorem toLower_of_isLowerIdChar {c : Char} (inLower : isLowerIdChar c) : c.toLower = c := by
  refine Text.toLower_of_not_isUpper fun upper => ?_
  simp only [isLowerIdChar, Bool.or_eq_true, beq_iff_eq] at inLower
  obtain ((small | digit) | rfl) | rfl := inLower
  · have apart := (Text.range_of_isLower small).1.trans (Text.isUpper_iff.1 upper).2
    exact absurd apart (by decide)
  · exact Text.not_isUpper_of_isDigit digit upper
  · cases upper
  · cases upper

theorem isIdChar_of_isLowerIdChar {c : Char} (inLower : isLowerIdChar c) : isIdChar c := by
  simp only [isLowerIdChar, isIdChar, Char.isAlphanum, Text.isAlpha_iff, Bool.or_eq_true]
    at inLower ⊢
  tauto

section Canonical

variable {id : String} {args : Option String} {body lines : List NumberedLine} {line : Nat}

theorem lower_of_canonical (canonical : Canonical (tagged id args body line)) :
    lower id.toList = id.toList := by
  have same (c : Char) (member : c ∈ id.toList) : c.toLower = c :=
    toLower_of_isLowerIdChar (List.all_eq_true.1 canonical.2.1 c member)
  rw [lower, List.map_congr_left same, List.map_id']

/-- The tag of a canonical block is well-formed. -/
theorem wellFormed_of_canonical (canonical : Canonical (tagged id args body line)) :
    Tag.WellFormed ⟨id.toList, args.map String.toList⟩ where
  letter := by
    exact Text.isAlpha_iff.2 (.inr canonical.1)
  name c member := isIdChar_of_isLowerIdChar (List.all_eq_true.1 canonical.2.1 c member)
  args := by simpa using canonical.2.2.1

theorem isPlain_of_canonical (canonical : Canonical (interaction lines)) (number : Nat) :
    ∀ line ∈ numbered number (lines.map (·.text)), isPlain line := by
  intro line member
  obtain ⟨source, known, same⟩ := List.mem_map.1 (NumberedLine.text_of_mem_numbered member)
  obtain ⟨solid, unmarked, untagged⟩ := canonical.2 source known
  rw [same] at unmarked untagged
  have solid : line.isBlank = false := by rwa [NumberedLine.isBlank, ← same]
  simp [isPlain, solid, unmarked, openingTag?_eq_none_iff.2 untagged]

end Canonical

section Scanning

variable {rest : List NumberedLine}

/-- The lines up to a closing tag on its own line are read as they are. -/
theorem body?_closed {id : List Char} (onTagLine : Bool) (current : NumberedLine)
    (here : ¬ closingTag id <:+: lower current.text.toList) {body : List NumberedLine}
    (unclosed : ∀ line ∈ body, ¬ closingTag id <:+: lower line.text.toList) (number : Nat) :
    body? (closingTag id) onTagLine current
        (body ++ ⟨number, String.ofList (closingTag id)⟩ :: rest) =
      some (if onTagLine && current.isBlank then body else current :: body, rest) := by
  induction body generalizing onTagLine current with
  | nil =>
    have closes : body? (closingTag id) false ⟨number, String.ofList (closingTag id)⟩ rest =
        some ([], rest) := by
      unfold body?
      rw [String.toList_ofList, cutAtClosing?_closingTag]
      rfl
    unfold body?
    rw [cutAtClosing?_eq_none_iff.2 here]
    simp [closes]
  | cons line body ih =>
    have later := ih false line (unclosed line (.head _))
      (fun line member => unclosed line (.tail _ member))
    unfold body?
    rw [cutAtClosing?_eq_none_iff.2 here]
    simp [later]

theorem next_printed_tagged {id : String} {args : Option String} {body : List NumberedLine}
    {line : Nat} (canonical : Canonical (tagged id args body line)) (number : Nat) :
    next ⟨number, String.ofList (Tag.written ⟨id.toList, args.map String.toList⟩)⟩
        (numbered (number + 1) (body.map (·.text) ++ [String.ofList (closingTag id.toList)])
          ++ rest) =
      .ok ((tagged id args body line).placed number, rest) := by
  have opened : openingTag? (Tag.written ⟨id.toList, args.map String.toList⟩) =
      some (⟨id.toList, args.map String.toList⟩, []) :=
    openingTag?_eq_some_iff.2 ⟨wellFormed_of_canonical canonical, (List.append_nil _).symm⟩
  have solid : NumberedLine.isBlank
      ⟨number, String.ofList (Tag.written ⟨id.toList, args.map String.toList⟩)⟩ = false := by
    simp [NumberedLine.isBlank, Text.allBlank, Tag.written, show Text.isBlank '<' = false by decide]
  have unclosed : ∀ line ∈ numbered (number + 1) (body.map (·.text)),
      ¬ closingTag id.toList <:+: lower line.text.toList := by
    intro line member
    obtain ⟨source, known, same⟩ := List.mem_map.1 (NumberedLine.text_of_mem_numbered member)
    rw [← same]
    exact canonical.2.2.2 source known
  have closes : body? (closingTag id.toList) true ⟨number, ""⟩
      (numbered (number + 1) (body.map (·.text) ++ [String.ofList (closingTag id.toList)])
        ++ rest) = some (numbered (number + 1) (body.map (·.text)), rest) := by
    rw [numbered_append, numbered_cons, numbered_nil, List.append_assoc, List.singleton_append]
    exact body?_closed true ⟨number, ""⟩ (by simp [closingTag_ne_nil]) unclosed _
  rw [next, if_neg (by simp [solid]), String.toList_ofList, opened]
  dsimp only
  rw [String.ofList_nil, closes]
  simp [placed, lower_of_canonical canonical]

/-- Lines behind a block do not continue it. -/
structure EndsBefore (block : Block) (rest : List NumberedLine) : Prop where
  /-- A blank run ends before a line that is not blank. -/
  blank : block = .blank → ∀ line ∈ rest.head?, line.isBlank = false
  /-- An interaction ends before a line that is not plain. -/
  interaction : block.isInteraction → ∀ line ∈ rest.head?, isPlain line = false

/-- A printed block is read as it was, if what follows it does not continue it. -/
theorem next_printed {block : Block} (canonical : block.Canonical) (number : Nat)
    (ends : block.EndsBefore rest) :
    ∃ first others, numbered number block.printed ++ rest = first :: others ∧
      next first others = .ok (block.placed number, rest) := by
  cases block with
  | tagged id args body line =>
    exact ⟨_, _, by rw [printed, List.cons_append, numbered_cons, List.cons_append],
      next_printed_tagged canonical number⟩
  | code line => exact ⟨⟨number, ">" ++ line.text⟩, rest, rfl, next_code number line.text⟩
  | interaction lines =>
    have plain := isPlain_of_canonical canonical number
    obtain ⟨head, tail, rfl⟩ := List.exists_cons_of_ne_nil canonical.1
    rw [List.map_cons, numbered_cons] at plain
    have plainTail := fun line member => plain line (.tail _ member)
    obtain ⟨taken, left⟩ :=
      Text.run_append (numbered (number + 1) (tail.map (·.text))) (ends.interaction rfl)
    rw [List.takeWhile_eq_self_iff.2 plainTail] at taken
    rw [List.dropWhile_eq_nil_iff.2 plainTail, List.nil_append] at left
    refine ⟨⟨number, head.text⟩, numbered (number + 1) (tail.map (·.text)) ++ rest,
      by simp [printed], ?_⟩
    rw [next_of_isPlain (plain _ (.head _)), taken, left, placed, List.map_cons, numbered_cons]
  | blank =>
    have left : rest.dropWhile NumberedLine.isBlank = rest :=
      (Text.run_append [] (ends.blank rfl)).2
    refine ⟨⟨number, ""⟩, rest, rfl, ?_⟩
    rw [next_of_isBlank rfl, left]
    rfl

/-- A block ends before lines that begin with a block that stands apart from it. -/
theorem endsBefore_of_apart {block second : Block} (apart : block.Apart second)
    (head : second ∈ (scan rest).1.head?) : block.EndsBefore rest := by
  obtain ⟨first, others, left, rfl, found⟩ := next_of_head_scan head
  constructor
  · rintro here line (_ | _)
    by_contra blank
    rw [next_of_isBlank (by simpa using blank)] at found
    cases found
    exact apart.blank ⟨here, rfl⟩
  · rintro here line (_ | _)
    by_contra plain
    rw [next_of_isPlain (by simpa using plain)] at found
    cases found
    exact apart.interaction ⟨here, rfl⟩

theorem apart_placed {block second : Block} (apart : block.Apart second) (number : Nat) :
    block.Apart (second.placed number) where
  blank := by simpa using apart.blank
  interaction := by simpa using apart.interaction

/-- Canonical blocks that are printed one after another are read as they were. -/
theorem scan_numbered {blocks : List Block} (apart : blocks.IsChain Apart)
    (canonical : ∀ block ∈ blocks, block.Canonical) (number : Nat) :
    scan (numbered number (blocks.flatMap printed)) = (placedAll number blocks, none) := by
  induction blocks generalizing number with
  | nil => exact scan_nil
  | cons block blocks ih =>
    have later := ih (List.isChain_cons.1 apart).2
      (fun block member => canonical block (.tail _ member)) (number + block.printed.length)
    have ends : block.EndsBefore
        (numbered (number + block.printed.length) (blocks.flatMap printed)) := by
      cases blocks with
      | nil => exact ⟨by simp, by simp⟩
      | cons second blocks =>
        -- the next block is known to be scanned where it was printed, so it ends this one
        have apart := (List.isChain_cons.1 apart).1 second rfl
        refine endsBefore_of_apart (apart_placed apart (number + block.printed.length)) ?_
        rw [later]
        rfl
    obtain ⟨first, others, known, found⟩ := next_printed (canonical block (.head _)) number ends
    rw [List.flatMap_cons, numbered_append, known, scan_of_ok found, later]
    rfl

theorem printed_ne_nil {block : Block} (canonical : block.Canonical) : block.printed ≠ [] := by
  cases block with
  | interaction lines => simpa [printed] using canonical.1
  | tagged | code | blank => simp [printed]

/-- Canonical blocks are printed on lines that, normalized one by one, are read as the same blocks
where they were printed.  So is the text of the lines, except for that of no lines. -/
theorem scan_printed {blocks : List Block} (apart : blocks.IsChain Apart)
    (canonical : ∀ block ∈ blocks, block.Canonical)
    (stay : ∀ text ∈ blocks.flatMap printed, NumberedLine.Stays text) :
    scan (NumberedLine.ofTexts 1 ((blocks.flatMap printed).map String.toList)) =
        (placedAll 1 blocks, none) ∧
      (blocks ≠ [] → scan (NumberedLine.ofSource ("\n".intercalate (blocks.flatMap printed))) =
        (placedAll 1 blocks, none)) := by
  have scans := scan_numbered apart canonical 1
  constructor
  · rw [← scans]
    exact congrArg scan (NumberedLine.ofTexts_of_stays stay 0)
  · intro nonempty
    obtain ⟨block, others, rfl⟩ := List.exists_cons_of_ne_nil nonempty
    have lines : (block :: others).flatMap printed ≠ [] := by
      simp [printed_ne_nil (canonical block (.head _))]
    rw [NumberedLine.ofSource_intercalate lines stay, scans]

/-- The text of no lines has a blank line, which no block was printed on. -/
theorem scan_printed_nothing :
    let blocks : List Block := []
    (blocks.IsChain Apart) ∧ (∀ block ∈ blocks, block.Canonical) ∧
      (∀ text ∈ blocks.flatMap printed, NumberedLine.Stays text) ∧
      scan (NumberedLine.ofSource ("\n".intercalate (blocks.flatMap printed))) =
        ([.blank], none) ∧
      scan (NumberedLine.ofSource ("\n".intercalate (blocks.flatMap printed))) ≠
        (placedAll 1 blocks, none) := by
  intro blocks
  have scans : scan (NumberedLine.ofSource ("\n".intercalate (blocks.flatMap printed))) =
      ([.blank], none) := by
    decide +kernel
  exact ⟨.nil, by simp [blocks], by simp [blocks], scans, by rw [scans]; decide⟩

/-- A file with a blank line and a tag in it, a line of code, a blank run and an interaction. -/
theorem scan_printed_file :
    let blocks : List Block :=
      [.tagged "file" (some "a b") [⟨2, "<code>"⟩, ⟨3, ""⟩, ⟨4, ">"⟩] 1, .code ⟨6, "x = 1"⟩, .blank,
        .interaction [⟨8, "<< 3"⟩, ⟨9, "bye"⟩]]
    (blocks.IsChain Apart) ∧ (∀ block ∈ blocks, block.Canonical) ∧
      (∀ text ∈ blocks.flatMap printed, NumberedLine.Stays text) ∧ blocks ≠ [] ∧
      placedAll 1 blocks = blocks ∧
      scan (NumberedLine.ofTexts 1 ((blocks.flatMap printed).map String.toList)) =
        (placedAll 1 blocks, none) ∧
      scan (NumberedLine.ofSource ("\n".intercalate (blocks.flatMap printed))) =
        (placedAll 1 blocks, none) := by
  intro blocks
  have apart : blocks.IsChain Apart := by decide
  have canonical : ∀ block ∈ blocks, block.Canonical := by decide +kernel
  have stay : ∀ text ∈ blocks.flatMap printed, NumberedLine.Stays text := by decide +kernel
  have nonempty : blocks ≠ [] := by simp [blocks]
  obtain ⟨lines, text⟩ := scan_printed apart canonical stay
  exact ⟨apart, canonical, stay, nonempty, rfl, lines, text nonempty⟩

end Scanning

end Block

end Colloquy
