import Colloquy.Text.Blank
import Colloquy.Text.Cut

/-!
# Numbered lines

The lines of a document without comments.  Every line keeps the number it has in the source, and
lines that are only a comment are left out.
-/

namespace Colloquy

/-- A line of a document, or a part of one. -/
structure NumberedLine where
  /-- The number of the line in the source, counted from one. -/
  number : Nat
  /-- The text of the line. -/
  text : String
deriving DecidableEq, Repr

namespace NumberedLine

/-- The line has nothing but blanks. -/
def isBlank (line : NumberedLine) : Bool := Text.allBlank line.text.toList

/-- The text before the first comment that follows a space or a tab.  Slashes are taken in pairs
from the left, and `spaced` says whether a space or a tab stands before the text. -/
def beforeComment? (spaced : Bool) : List Char → Option (List Char)
  | '/' :: '/' :: rest =>
    if spaced then some [] else (beforeComment? false rest).map ('/' :: '/' :: ·)
  | c :: rest => (beforeComment? (Text.isSpacing c) rest).map (c :: ·)
  | [] => none

/-- The text without its comment and the blanks before that. -/
def withoutComment (text : List Char) : List Char :=
  match beforeComment? false text with
  | some before => Text.trimEnd before
  | none => text

/-- The first characters of the text that are no blanks begin a comment. -/
def isComment (text : List Char) : Bool := ['/', '/'].isPrefixOf (Text.trimStart text)

/-- The lines of raw texts from a line number on. -/
def ofTexts (number : Nat) : List (List Char) → List NumberedLine
  | [] => []
  | raw :: rest =>
    let text := Text.withoutReturn raw
    if isComment text then ofTexts (number + 1) rest
    else ⟨number, String.ofList (withoutComment text)⟩ :: ofTexts (number + 1) rest

/-- The lines of a source, without comments. -/
def ofSource (source : String) : List NumberedLine :=
  ofTexts 1 (source.toList.splitOn '\n')

end NumberedLine

end Colloquy
