import Colloquy.Document.Line
import Colloquy.Error

/-!
# Blocks

A document is a sequence of tagged blocks, single lines of code, interactions and blank runs.
Text behind a closing tag is scanned as a line of its own.
-/

namespace Colloquy

/-- A unit of a document: the lines between two tags, the first of which starts on the given line, a
line of code without its mark, plain lines that follow each other, or blank lines. -/
inductive Block where
  | tagged (id : String) (args : Option String) (body : List NumberedLine) (line : Nat)
  | code (line : NumberedLine)
  | interaction (lines : List NumberedLine)
  | blank
deriving DecidableEq, Repr

namespace Block

/-- The opening tag of a block. -/
structure Tag where
  /-- The name of the block as it is written. -/
  id : List Char
  /-- The text behind the equals sign, if there is one. -/
  args : Option (List Char)

/-- A character of a block name. -/
def isIdChar (c : Char) : Bool := c.isAlphanum || c == '_' || c == '-'

/-- The arguments between the name of a tag and its end: none at all, or text behind an equals
sign. -/
def args? : List Char → Option (Option (List Char))
  | [] => some none
  | '=' :: args => some (some args)
  | _ => none

/-- The opening tag at the start of a text, and the text after it. -/
def openingTag? : List Char → Option (Tag × List Char)
  | '<' :: inner =>
    let id := inner.takeWhile isIdChar
    if (id.headD ' ').isAlpha then do
      let (written, rest) ← Text.cutAt? ['>'] (inner.dropWhile isIdChar)
      let args ← args? written
      return (⟨id, args⟩, rest)
    else none
  | _ => none

/-- The text in lower case, for ASCII letters. -/
def lower (text : List Char) : List Char := text.map Char.toLower

/-- The closing tag of a block name. -/
def closingTag (id : List Char) : List Char := '<' :: '/' :: lower id ++ ['>']

/-- The texts before and after a closing tag in any letter case. -/
def cutAtClosing? (closing text : List Char) : Option (List Char × List Char) :=
  (Text.cutAt? closing (lower text)).map fun (before, _) =>
    (text.take before.length, text.drop (before.length + closing.length))

/-- A part of a line, or nothing if it is blank. -/
def fragment (number : Nat) (text : List Char) : List NumberedLine :=
  if Text.allBlank text then [] else [⟨number, String.ofList text⟩]

/-- The lines of a block from the current one to the closing tag, and the lines after it.  A blank
rest of the line with the opening tag does not count. -/
def body? (closing : List Char) (onTagLine : Bool) (current : NumberedLine)
    (lines : List NumberedLine) : Option (List NumberedLine × List NumberedLine) :=
  match cutAtClosing? closing current.text.toList with
  | some (before, after) =>
    some (fragment current.number before, fragment current.number after ++ lines)
  | none =>
    match lines with
    | [] => none
    | next :: rest =>
      (body? closing false next rest).map fun (body, rest) =>
        (if onTagLine && current.isBlank then body else current :: body, rest)

/-- The line continues an interaction. -/
def isPlain (line : NumberedLine) : Bool :=
  let text := line.text.toList
  !line.isBlank && text.head? != some '>' && (openingTag? text).isNone

/-- The block that starts with a line, and the lines after it. -/
def next (first : NumberedLine) (lines : List NumberedLine) :
    Except ParseError (Block × List NumberedLine) :=
  if first.isBlank then .ok (blank, lines.dropWhile NumberedLine.isBlank)
  else match openingTag? first.text.toList with
  | some (tag, rest) =>
    match body? (closingTag tag.id) true ⟨first.number, String.ofList rest⟩ lines with
    | some (body, lines) =>
      .ok (tagged (String.ofList (lower tag.id)) (tag.args.map String.ofList) body first.number,
        lines)
    | none => .error (.unterminatedBlock (String.ofList tag.id) first.number)
  | none =>
    match first.text.toList with
    | '>' :: rest => .ok (code ⟨first.number, String.ofList rest⟩, lines)
    | _ => .ok (interaction (first :: lines.takeWhile isPlain), lines.dropWhile isPlain)

/-- The number of characters of lines, with one more for the end of each. -/
def weight : List NumberedLine → Nat
  | [] => 0
  | line :: rest => line.text.toList.length + 1 + weight rest

theorem weight_append (first second : List NumberedLine) :
    weight (first ++ second) = weight first + weight second := by
  induction first with
  | nil => simp [weight]
  | cons line rest ih => simp [weight, ih, Nat.add_assoc]

theorem weight_dropWhile_le (skip : NumberedLine → Bool) (lines : List NumberedLine) :
    weight (lines.dropWhile skip) ≤ weight lines := by
  induction lines with
  | nil => simp
  | cons line rest ih =>
    rw [List.dropWhile_cons]
    split <;> simp_all only [weight] <;> omega

theorem weight_fragment_le (number : Nat) (text : List Char) :
    weight (fragment number text) ≤ text.length + 1 := by
  unfold fragment
  split <;> simp [weight]

theorem weight_body?_le {closing : List Char} {onTagLine : Bool} {current : NumberedLine}
    {lines body rest : List NumberedLine}
    (closed : body? closing onTagLine current lines = some (body, rest)) :
    weight rest ≤ weight (current :: lines) := by
  induction lines generalizing onTagLine current body rest with
  | nil =>
    unfold body? at closed
    split at closed
    · rename_i before after cut
      obtain ⟨-, rfl⟩ := by simpa using closed
      obtain ⟨⟨_, _⟩, -, same⟩ := Option.map_eq_some_iff.1 cut
      have := weight_fragment_le current.number after
      simp only [Prod.mk.injEq] at same
      simp only [List.append_nil, weight, ← same.2, List.length_drop] at *
      omega
    · simp at closed
  | cons next lines ih =>
    unfold body? at closed
    split at closed
    · rename_i before after cut
      obtain ⟨-, rfl⟩ := by simpa using closed
      obtain ⟨⟨_, _⟩, -, same⟩ := Option.map_eq_some_iff.1 cut
      have := weight_fragment_le current.number after
      simp only [Prod.mk.injEq] at same
      simp only [weight_append, weight, ← same.2, List.length_drop] at *
      omega
    · obtain ⟨⟨_, _⟩, closed, same⟩ := Option.map_eq_some_iff.1 closed
      have := ih closed
      simp only [Prod.mk.injEq] at same
      simp only [weight, ← same.2] at *
      omega

theorem length_of_openingTag? {text rest : List Char} {tag : Tag}
    (opened : openingTag? text = some (tag, rest)) : rest.length < text.length := by
  unfold openingTag? at opened
  split at opened
  · rename_i inner
    dsimp only at opened
    split at opened
    · simp only [Option.bind_eq_bind, Option.bind_eq_some_iff, Option.pure_def,
        Option.some.injEq, Prod.mk.injEq, Prod.exists] at opened
      obtain ⟨before, after, cut, -, -, -, rfl⟩ := opened
      have parts := congrArg List.length (Text.append_of_cutAt? cut)
      have shorter : (inner.dropWhile isIdChar).length ≤ inner.length :=
        (List.dropWhile_suffix _).length_le
      simp only [List.length_append, List.length_cons] at *
      omega
    · simp at opened
  · simp at opened

theorem weight_next_lt {first : NumberedLine} {lines rest : List NumberedLine} {block : Block}
    (found : next first lines = .ok (block, rest)) : weight rest < weight (first :: lines) := by
  unfold next at found
  split at found
  · obtain ⟨-, rfl⟩ := by simpa using found
    have := weight_dropWhile_le NumberedLine.isBlank lines
    simp only [weight]
    omega
  · split at found
    · rename_i tag after opened
      split at found
      · rename_i closed
        obtain ⟨-, rfl⟩ := by simpa using found
        have := weight_body?_le closed
        have := length_of_openingTag? opened
        simp only [weight, String.toList_ofList] at *
        omega
      · simp at found
    · split at found
      · obtain ⟨-, rfl⟩ := by simpa using found
        simp only [weight]
        omega
      · obtain ⟨-, rfl⟩ := by simpa using found
        have := weight_dropWhile_le isPlain lines
        simp only [weight]
        omega

/-- The blocks of lines up to the first error, and that error if there is one. -/
def scan : List NumberedLine → List Block × Option ParseError
  | [] => ([], none)
  | first :: lines =>
    match _found : next first lines with
    | .ok (block, rest) =>
      let (blocks, fault) := scan rest
      (block :: blocks, fault)
    | .error fault => ([], some fault)
termination_by lines => weight lines
decreasing_by exact weight_next_lt _found

end Block

end Colloquy
