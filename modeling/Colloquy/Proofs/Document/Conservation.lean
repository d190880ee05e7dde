import Colloquy.Proofs.Document.Scanning
import Colloquy.Proofs.Document.Tags

/-!
# What a scan keeps of a text

The blocks of a document, written back in order, have every character of its lines that is not
blank, once and in order.  Each of their lines belongs to the line of the document that it was cut
from and has the number of that line.
-/

namespace Colloquy

namespace Block

/-- The text in lower case and without its blanks. -/
def squeezed (text : List Char) : List Char := (lower text).filter (!Text.isBlank ·)

theorem squeezed_append (first second : List Char) :
    squeezed (first ++ second) = squeezed first ++ squeezed second := by
  simp [squeezed]

theorem squeezed_of_lower_eq {first second : List Char} (same : lower first = lower second) :
    squeezed first = squeezed second := by
  rw [squeezed, same, squeezed]

theorem squeezed_of_allBlank {text : List Char} (blank : Text.allBlank text) :
    squeezed text = [] := by
  have each : ∀ c ∈ text, Text.isBlank c := List.all_eq_true.1 blank
  simpa [squeezed, lower, Text.isBlank_toLower] using each

/-- The lines of a block as they are written, with the closing tag on a line of its own.  A blank
run leaves nothing. -/
def written (closing : Nat) : Block → List NumberedLine
  | tagged id args body line =>
    ⟨line, String.ofList (Tag.written ⟨id.toList, args.map String.toList⟩)⟩ :: body
      ++ [⟨closing, String.ofList (closingTag id.toList)⟩]
  | code line => [⟨line.number, ">" ++ line.text⟩]
  | interaction lines => lines
  | blank => []

/-- The characters of lines, one line after the other. -/
def characters (lines : List NumberedLine) : List Char := lines.flatMap (·.text.toList)

theorem characters_cons (line : NumberedLine) (lines : List NumberedLine) :
    characters (line :: lines) = line.text.toList ++ characters lines :=
  List.flatMap_cons

theorem characters_append (first second : List NumberedLine) :
    characters (first ++ second) = characters first ++ characters second :=
  List.flatMap_append

/-- Lines that a line was cut into: each is a part of it in some letter case and has its number,
and all of them have its characters but for blanks. -/
structure Share (line : NumberedLine) (parts : List NumberedLine) : Prop where
  /-- The parts are on the line. -/
  number : ∀ part ∈ parts, part.number = line.number
  /-- The parts are in the text of the line. -/
  inside : ∀ part ∈ parts, lower part.text.toList <:+: lower line.text.toList
  /-- The parts have the text of the line. -/
  text : squeezed (characters parts) = squeezed line.text.toList

theorem share_self (line : NumberedLine) : Share line [line] where
  number := by simp
  inside := by simp
  text := by simp [characters]

theorem share_of_isBlank {line : NumberedLine} (blank : line.isBlank) : Share line [] where
  number := by simp
  inside := by simp
  text := (squeezed_of_allBlank blank).symm

theorem share_of_lower_eq (number : Nat) {text other : List Char}
    (same : lower text = lower other) :
    Share ⟨number, String.ofList text⟩ [⟨number, String.ofList other⟩] where
  number := by simp
  inside := by simp [same]
  text := by simpa [characters] using (squeezed_of_lower_eq same).symm

theorem share_fragment (number : Nat) (text : List Char) :
    Share ⟨number, String.ofList text⟩ (fragment number text) := by
  unfold fragment
  split
  · rename_i blank
    refine share_of_isBlank ?_
    simpa [NumberedLine.isBlank] using blank
  · exact share_self _

/-- A line that is cut in two has the shares of both pieces. -/
theorem Share.append {line : NumberedLine} {piece rest : List Char} {front back : List NumberedLine}
    (split : lower line.text.toList = lower piece ++ lower rest)
    (first : Share ⟨line.number, String.ofList piece⟩ front)
    (second : Share ⟨line.number, String.ofList rest⟩ back) : Share line (front ++ back) where
  number part member := by
    obtain member | member := List.mem_append.1 member
    · exact first.number part member
    · exact second.number part member
  inside part member := by
    rw [split]
    obtain member | member := List.mem_append.1 member
    · have within := first.inside part member
      simp only [String.toList_ofList] at within
      exact within.trans (List.prefix_append _ _).isInfix
    · have within := second.inside part member
      simp only [String.toList_ofList] at within
      exact within.trans (List.suffix_append _ _).isInfix
  text := by
    have whole : squeezed line.text.toList = squeezed (piece ++ rest) :=
      squeezed_of_lower_eq (by rw [split, lower_append])
    rw [whole, squeezed_append, characters_append, squeezed_append, first.text, second.text,
      String.toList_ofList, String.toList_ofList]

/-- Every line, in order, has its share of the parts. -/
inductive Accounts : List NumberedLine → List NumberedLine → Prop
  | nil : Accounts [] []
  | cons {line : NumberedLine} {share lines parts : List NumberedLine} (own : Share line share)
      (others : Accounts lines parts) : Accounts (line :: lines) (share ++ parts)

section Accounts

variable {lines parts : List NumberedLine}

theorem Accounts.keep (accounts : Accounts lines parts) (line : NumberedLine) :
    Accounts (line :: lines) (line :: parts) :=
  .cons (share_self line) accounts

theorem Accounts.keepAll (accounts : Accounts lines parts) (front : List NumberedLine) :
    Accounts (front ++ lines) (front ++ parts) := by
  induction front with
  | nil => exact accounts
  | cons line front ih => exact ih.keep line

theorem Accounts.skip (accounts : Accounts lines parts) {line : NumberedLine}
    (blank : line.isBlank) : Accounts (line :: lines) parts :=
  .cons (share_of_isBlank blank) accounts

theorem Accounts.skipBlanks (accounts : Accounts (lines.dropWhile NumberedLine.isBlank) parts) :
    Accounts lines parts := by
  induction lines with
  | nil => exact accounts
  | cons line lines ih =>
    rw [List.dropWhile_cons] at accounts
    split at accounts
    · rename_i blank
      exact (ih accounts).skip blank
    · exact accounts

/-- A piece in front of a line goes with the share of the line. -/
theorem Accounts.piece {piece rest : List Char} {front : List NumberedLine}
    (line : NumberedLine) (accounts : Accounts (⟨line.number, String.ofList rest⟩ :: lines) parts)
    (split : lower line.text.toList = lower piece ++ lower rest)
    (first : Share ⟨line.number, String.ofList piece⟩ front) :
    Accounts (line :: lines) (front ++ parts) := by
  cases accounts with
  | cons own others =>
    rw [← List.append_assoc]
    exact .cons (first.append split own) others

theorem Accounts.fragment {number : Nat} {text : List Char}
    (accounts : Accounts (fragment number text ++ lines) parts) :
    Accounts (⟨number, String.ofList text⟩ :: lines) parts := by
  unfold Block.fragment at accounts
  split at accounts
  · rename_i blank
    refine accounts.skip ?_
    simpa [NumberedLine.isBlank] using blank
  · exact accounts

end Accounts

section Scanning

variable {lines rest parts : List NumberedLine}

theorem Accounts.closed {id before after : List Char} {current : NumberedLine}
    (cut : cutAtClosing? (closingTag id) current.text.toList = some (before, after))
    (accounts : Accounts (Block.fragment current.number after ++ lines) parts) :
    Accounts (current :: lines) (Block.fragment current.number before ++
      ⟨current.number, String.ofList (closingTag id)⟩ :: parts) := by
  have split := lower_of_cutAtClosing? cut
  have tail := accounts.fragment.piece ⟨current.number, String.ofList (closingTag id ++ after)⟩
    (by simp) (share_self ⟨current.number, String.ofList (closingTag id)⟩)
  refine tail.piece current ?_ (share_fragment _ before)
  simpa using split

/-- The lines that a tagged block takes have their shares in its body and its closing tag. -/
theorem accounts_of_body? {id : List Char} {onTagLine : Bool} {current : NumberedLine}
    {body : List NumberedLine}
    (closes : body? (closingTag id) onTagLine current lines = some (body, rest))
    (accounts : Accounts rest parts) :
    ∃ closing, Accounts (current :: lines)
      (body ++ ⟨closing, String.ofList (closingTag id)⟩ :: parts) := by
  induction lines generalizing onTagLine current body with
  | nil =>
    unfold body? at closes
    split at closes
    · rename_i cut
      cases closes
      exact ⟨_, accounts.closed cut⟩
    · cases closes
  | cons next lines ih =>
    unfold body? at closes
    split at closes
    · rename_i cut
      cases closes
      exact ⟨_, accounts.closed cut⟩
    · obtain ⟨⟨inner, _⟩, closes, same⟩ := Option.map_eq_some_iff.1 closes
      cases same
      obtain ⟨closing, later⟩ := ih closes
      refine ⟨closing, ?_⟩
      -- only the blank rest of the line with the opening tag is left out
      split
      · rename_i skipped
        obtain ⟨-, blank⟩ := by simpa using skipped
        exact later.skip blank
      · exact later.keep current

/-- A block accounts for the lines that it takes, however the rest is accounted for. -/
theorem accounts_of_next {first : NumberedLine} {block : Block}
    (found : next first lines = .ok (block, rest)) (accounts : Accounts rest parts) :
    ∃ closing, Accounts (first :: lines) (block.written closing ++ parts) := by
  unfold next at found
  split at found
  · rename_i blank
    cases found
    exact ⟨0, accounts.skipBlanks.skip blank⟩
  · split at found
    · rename_i tag after opened
      split at found
      · rename_i body _ closes
        cases found
        obtain ⟨closing, later⟩ := accounts_of_body? closes accounts
        obtain ⟨-, text⟩ := openingTag?_eq_some_iff.1 opened
        have opening : Share ⟨first.number, String.ofList tag.written⟩
            [⟨first.number, String.ofList (Tag.written ⟨lower tag.id, tag.args⟩)⟩] := by
          refine share_of_lower_eq first.number ?_
          simp [Tag.written]
        have whole := later.piece first (by rw [text, lower_append]) opening
        refine ⟨closing, ?_⟩
        simpa [written] using whole
      · cases found
    · split at found
      · rename_i after marked
        cases found
        have whole : (⟨first.number, ">" ++ String.ofList after⟩ : NumberedLine) = first := by
          have text : first.text = ">" ++ String.ofList after := by
            rw [← String.toList_inj, marked]
            simp
          rw [← text]
        refine ⟨0, ?_⟩
        rw [written, whole]
        exact accounts.keep first
      · cases found
        have kept := accounts.keepAll (first :: lines.takeWhile isPlain)
        rw [List.cons_append, List.takeWhile_append_dropWhile] at kept
        exact ⟨0, kept⟩

/-- The blocks of a scan without an error account for all lines. -/
theorem accounts_of_scan (lines : List NumberedLine) (sound : (scan lines).2 = none) :
    ∃ groups, List.Forall₂ (fun block group => ∃ closing, group = block.written closing)
        (scan lines).1 groups ∧
      Accounts lines groups.flatten := by
  induction lines using scan.induct with
  | case1 =>
    rw [scan_nil]
    exact ⟨[], .nil, .nil⟩
  | case2 first lines block rest found blocks fault scanned ih =>
    rw [scan_of_ok found] at sound ⊢
    obtain ⟨groups, written, accounts⟩ := ih sound
    obtain ⟨closing, whole⟩ := accounts_of_next found accounts
    exact ⟨block.written closing :: groups, .cons ⟨closing, rfl⟩ written, whole⟩
  | case3 first lines fault failed =>
    rw [scan_of_error failed] at sound
    cases sound

end Scanning

section Shares

variable {lines parts : List NumberedLine}

theorem Accounts.squeezed_eq (accounts : Accounts lines parts) :
    squeezed (characters parts) = squeezed (characters lines) := by
  induction accounts with
  | nil => rfl
  | cons own _ ih =>
    rw [characters_append, characters_cons, squeezed_append, squeezed_append, own.text, ih]

theorem Accounts.number_mem (accounts : Accounts lines parts) :
    ∀ part ∈ parts, ∃ line ∈ lines, part.number = line.number := by
  induction accounts with
  | nil => simp
  | cons own _ ih =>
    intro part member
    obtain member | member := List.mem_append.1 member
    · exact ⟨_, .head _, own.number part member⟩
    · obtain ⟨line, known, same⟩ := ih part member
      exact ⟨line, .tail _ known, same⟩

/-- Parts stand in the order of their lines. -/
theorem Accounts.ordered (accounts : Accounts lines parts)
    (increasing : lines.Pairwise fun first second => first.number < second.number) :
    parts.Pairwise fun first second => first.number ≤ second.number := by
  induction accounts with
  | nil => exact .nil
  | cons own others ih =>
    obtain ⟨below, later⟩ := List.pairwise_cons.1 increasing
    refine List.pairwise_append.2 ⟨?_, ih later, ?_⟩
    · refine List.pairwise_of_forall_mem_list fun first member second known => ?_
      rw [own.number first member, own.number second known]
    · intro first member second known
      obtain ⟨line, among, same⟩ := others.number_mem second known
      have := below line among
      rw [own.number first member, same]
      omega

end Shares

/-- Written back, the blocks of a scan are the text that was scanned, but for blanks and the case of
ASCII letters.  Each line that is written back is a part of one line of the text, in order, and has
its number; no two neighbours are both interactions or both blank. -/
theorem scan_conserves {lines : List NumberedLine} {blocks : List Block}
    (increasing : lines.Pairwise fun first second => first.number < second.number)
    (scans : scan lines = (blocks, none)) :
    ∃ groups, List.Forall₂ (fun block group => ∃ closing, group = block.written closing)
        blocks groups ∧
      squeezed (characters groups.flatten) = squeezed (characters lines) ∧
      Accounts lines groups.flatten ∧
      (groups.flatten.Pairwise fun first second => first.number ≤ second.number) ∧
      blocks.IsChain Apart := by
  have apart := apart_scan lines
  obtain ⟨groups, written, accounts⟩ := accounts_of_scan lines (by rw [scans])
  rw [scans] at written apart
  exact ⟨groups, written, accounts.squeezed_eq, accounts, accounts.ordered increasing, apart⟩

/-- A tagged block and a line of code on one source line, and a tagged block with text behind it. -/
theorem scan_conserves_tags :
    let lines : List NumberedLine :=
      [⟨1, "<CODE>x = 1</Code>>y"⟩, ⟨3, ""⟩, ⟨4, " hello"⟩, ⟨5, "<file=a b>"⟩, ⟨6, ""⟩,
        ⟨7, "A </FILE> bye"⟩]
    let blocks : List Block :=
      [.tagged "code" none [⟨1, "x = 1"⟩] 1, .code ⟨1, "y"⟩, .blank, .interaction [⟨4, " hello"⟩],
        .tagged "file" (some "a b") [⟨6, ""⟩, ⟨7, "A "⟩] 5, .interaction [⟨7, " bye"⟩]]
    (lines.Pairwise fun first second => first.number < second.number) ∧
      scan lines = (blocks, none) ∧
      ∃ groups, List.Forall₂ (fun block group => ∃ closing, group = block.written closing)
          blocks groups ∧
        squeezed (characters groups.flatten) = squeezed (characters lines) ∧
        Accounts lines groups.flatten ∧
        (groups.flatten.Pairwise fun first second => first.number ≤ second.number) ∧
        blocks.IsChain Apart := by
  intro lines blocks
  have increasing : lines.Pairwise fun first second => first.number < second.number := by decide
  have scans : scan lines = (blocks, none) := by decide +kernel
  exact ⟨increasing, scans, scan_conserves increasing scans⟩

end Block

end Colloquy
