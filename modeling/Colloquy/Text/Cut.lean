/-!
# Cutting texts

Texts before and after a pattern, and the lines of a text.
-/

namespace Colloquy.Text

/-- The texts before and after the first occurrence of a pattern. -/
def cutAt? (pattern : List Char) : List Char → Option (List Char × List Char)
  | [] => if pattern = [] then some ([], []) else none
  | c :: rest =>
    if pattern.isPrefixOf (c :: rest) then some ([], (c :: rest).drop pattern.length)
    else (cutAt? pattern rest).map fun (before, after) => (c :: before, after)

/-- The texts before and after the first character of a class. -/
def cutAtFirst? (isMark : Char → Bool) (text : List Char) : Option (List Char × List Char) :=
  match text.dropWhile fun c => !isMark c with
  | _ :: after => some (text.takeWhile fun c => !isMark c, after)
  | [] => none

/-- The texts before and after the last occurrence of a character. -/
def cutAtLast? (mark : Char) : List Char → Option (List Char × List Char)
  | [] => none
  | c :: rest =>
    match cutAtLast? mark rest with
    | some (before, after) => some (c :: before, after)
    | none => if c = mark then some ([], rest) else none

/-- The part of a dotted name behind its last dot. -/
def lastSegment (name : List Char) : List Char :=
  match cutAtLast? '.' name with
  | some (_, segment) => segment
  | none => name

/-- The text without one carriage return at its end. -/
def withoutReturn (text : List Char) : List Char :=
  if text.getLast? = some '\r' then text.dropLast else text

/-- The lines of a text: a line ends with a line feed, with an optional carriage return before it,
and the text after the last line feed is a line only if there is any. -/
def lines (text : List Char) : List (List Char) :=
  match (text.splitOn '\n').reverse with
  | [] => []
  | final :: ended =>
    (ended.reverse.map withoutReturn) ++ if final = [] then [] else [final]

/-- A pattern occurs in a text. -/
def contains (text pattern : List Char) : Bool := (cutAt? pattern text).isSome

theorem append_of_cutAt? {pattern text before after : List Char}
    (found : cutAt? pattern text = some (before, after)) : text = before ++ pattern ++ after := by
  induction text generalizing before after with
  | nil =>
    simp only [cutAt?] at found
    split at found <;> simp_all
  | cons c rest ih =>
    simp only [cutAt?] at found
    split at found
    · rename_i starts
      obtain ⟨rfl, rfl⟩ := by simpa using found
      exact (List.prefix_iff_eq_append.1 (List.isPrefixOf_iff_prefix.1 starts)).symm
    · obtain ⟨⟨inner, tail⟩, within, same⟩ := Option.map_eq_some_iff.1 found
      obtain ⟨rfl, rfl⟩ := by simpa using same
      simp [ih within]

end Colloquy.Text
