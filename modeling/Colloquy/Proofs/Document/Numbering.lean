import Colloquy.Document.Line
import Colloquy.Proofs.Text.Cut

/-!
# Where lines are numbered from

The lines of a source have the same texts wherever it begins.  The lines of joined sources are
those of the first one and, further down, those of the second one.
-/

namespace Colloquy

namespace NumberedLine

/-- The line a number of lines further down. -/
def lowered (count : Nat) (line : NumberedLine) : NumberedLine :=
  { line with number := line.number + count }

/-- Texts as lines with the numbers from a number on. -/
def numbered (number : Nat) (texts : List String) : List NumberedLine :=
  (texts.zipIdx number).map fun (text, number) => ⟨number, text⟩

@[simp]
theorem text_lowered (count : Nat) (line : NumberedLine) : (line.lowered count).text = line.text :=
  rfl

@[simp]
theorem isBlank_lowered (count : Nat) (line : NumberedLine) :
    (line.lowered count).isBlank = line.isBlank :=
  rfl

@[simp]
theorem numbered_nil (number : Nat) : numbered number [] = [] := rfl

@[simp]
theorem numbered_cons (number : Nat) (text : String) (texts : List String) :
    numbered number (text :: texts) = ⟨number, text⟩ :: numbered (number + 1) texts := by
  rw [numbered, List.zipIdx_cons]
  rfl

theorem numbered_append (number : Nat) (first second : List String) :
    numbered number (first ++ second) =
      numbered number first ++ numbered (number + first.length) second := by
  rw [numbered, List.zipIdx_append, List.map_append]
  rfl

theorem text_of_mem_numbered {number : Nat} {texts : List String} {line : NumberedLine}
    (member : line ∈ numbered number texts) : line.text ∈ texts := by
  induction texts generalizing number with
  | nil => cases member
  | cons text texts ih =>
    rw [numbered_cons] at member
    cases member with
    | head => exact .head _
    | tail _ later => exact .tail _ (ih later)

theorem ofTexts_lowered (number count : Nat) (texts : List (List Char)) :
    ofTexts (number + count) texts = (ofTexts number texts).map (lowered count) := by
  induction texts generalizing number with
  | nil => rfl
  | cons raw texts ih =>
    simp only [ofTexts, Nat.add_right_comm number count 1, ih]
    split <;> rfl

theorem ofTexts_append (number : Nat) (first second : List (List Char)) :
    ofTexts number (first ++ second) =
      ofTexts number first ++ ofTexts (number + first.length) second := by
  induction first generalizing number with
  | nil => rfl
  | cons raw first ih =>
    simp only [List.cons_append, List.length_cons, ofTexts, ih, Nat.add_assoc,
      Nat.add_comm first.length 1]
    split <;> rfl

theorem le_number_of_mem_ofTexts {number : Nat} {texts : List (List Char)} {line : NumberedLine}
    (member : line ∈ ofTexts number texts) : number ≤ line.number := by
  induction texts generalizing number with
  | nil => cases member
  | cons raw texts ih =>
    rw [ofTexts] at member
    split at member
    · exact Nat.le_of_succ_le (ih member)
    · cases member with
      | head => exact Nat.le_refl number
      | tail _ later => exact Nat.le_of_succ_le (ih later)

/-- The lines of a source stand in the order of their numbers, and no two have the same. -/
theorem pairwise_ofTexts (number : Nat) (texts : List (List Char)) :
    (ofTexts number texts).Pairwise fun first second => first.number < second.number := by
  induction texts generalizing number with
  | nil => exact .nil
  | cons raw texts ih =>
    rw [ofTexts]
    split
    · exact ih (number + 1)
    · exact .cons (fun line later => le_number_of_mem_ofTexts later) (ih (number + 1))

/-- The number of lines of a source, comments included. -/
def lineCount (source : String) : Nat := (source.toList.splitOn '\n').length

/-- The lines of two texts with a line end between them are those of both. -/
theorem splitOn_lineEnd (first second : String) :
    (first ++ "\n" ++ second).toList.splitOn '\n' =
      first.toList.splitOn '\n' ++ second.toList.splitOn '\n' := by
  have joined : (first ++ "\n" ++ second).toList = first.toList ++ '\n' :: second.toList := by
    simp
  rw [joined, List.splitOn_append_cons_self]

/-- The lines of two sources with a line end between them. -/
theorem ofSource_append (first second : String) :
    ofSource (first ++ "\n" ++ second) =
      ofSource first ++ (ofSource second).map (lowered (lineCount first)) := by
  rw [ofSource, splitOn_lineEnd, ofTexts_append, ofTexts_lowered]
  rfl

theorem lineCount_append (first second : String) :
    lineCount (first ++ "\n" ++ second) = lineCount first + lineCount second := by
  rw [lineCount, splitOn_lineEnd, List.length_append]
  rfl

/-- The lines of two sources with a blank line between them. -/
theorem ofSource_blankLine (first second : String) :
    ofSource (first ++ "\n\n" ++ second) =
      ofSource first ++ ⟨1 + lineCount first, ""⟩ ::
        (ofSource second).map (lowered (lineCount first + 1)) := by
  have parts : first ++ "\n\n" ++ second = first ++ "\n" ++ "" ++ "\n" ++ second := by
    rw [← String.toList_inj]
    simp
  have empty : ofSource "" = [⟨1, ""⟩] := by decide +kernel
  have one : lineCount "" = 1 := by decide +kernel
  rw [parts, ofSource_append, ofSource_append, lineCount_append, empty, one, List.append_assoc]
  rfl

/-- The source is one line that stays as it is. -/
def Stays (text : String) : Prop := '\n' ∉ text.toList ∧ ofSource text = [⟨1, text⟩]

instance : DecidablePred Stays := fun _ => inferInstanceAs (Decidable (_ ∧ _))

/-- Lines that stay as they are keep their texts and are numbered by their places. -/
theorem ofTexts_of_stays {texts : List String} (stay : ∀ text ∈ texts, Stays text) (above : Nat) :
    ofTexts (1 + above) (texts.map String.toList) = numbered (1 + above) texts := by
  induction texts generalizing above with
  | nil => rfl
  | cons text texts ih =>
    obtain ⟨single, same⟩ := stay text (.head _)
    have here : ofTexts (1 + above) [text.toList] = [⟨1 + above, text⟩] := by
      rw [ofTexts_lowered, ← List.splitOn_eq_singleton single]
      exact congrArg (List.map (lowered above)) same
    have later := ih (fun text member => stay text (.tail _ member)) (above + 1)
    rw [List.map_cons, ← List.singleton_append, ofTexts_append, here, numbered_cons]
    exact congrArg _ later

/-- Joined lines that stay as they are, if there are any, are the lines of what they make. -/
theorem ofSource_intercalate {texts : List String} (nonempty : texts ≠ [])
    (stay : ∀ text ∈ texts, Stays text) :
    ofSource ("\n".intercalate texts) = numbered 1 texts := by
  have cut : ("\n".intercalate texts).toList.splitOn '\n' = texts.map String.toList := by
    rw [String.toList_intercalate]
    refine List.splitOn_intercalate '\n' (fun part member => ?_) (by simpa using nonempty)
    obtain ⟨text, known, rfl⟩ := List.mem_map.1 member
    exact (stay text known).1
  rw [ofSource, cut]
  exact ofTexts_of_stays stay 0

end NumberedLine

end Colloquy
