import Colloquy.Text.Alphanumeric
import Colloquy.Text.LetterCase.Table

/-!
# Letter case

Texts in upper and in lower case, by the full case mappings.  A capital sigma that ends a word has
a lower-case form of its own.
-/

namespace Colloquy.Text

namespace LetterCase

/-- The characters that a code point is mapped to by expansions and runs. -/
def mapped (expansions : List (Nat × List Nat)) (runs : List (Nat × Nat × Nat × Int))
    (c : Char) : List Char :=
  let point := c.toNat
  match expansions.lookup point with
  | some points => points.map Char.ofNat
  | none =>
    match runs.find? fun (first, last, step, _) =>
        first ≤ point && point ≤ last && (point - first) % step == 0 with
    | some (_, _, _, distance) => [Char.ofNat (point + distance).toNat]
    | none => [c]

/-- The upper-case characters of a character. -/
def upperOf (c : Char) : List Char := mapped upperExpansions upperRuns c

/-- The lower-case characters of a character, regardless of what stands beside it. -/
def lowerOf (c : Char) : List Char := mapped lowerExpansions lowerRuns c

/-- The first character that case does not ignore has case. -/
def meetsCased (text : List Char) : Bool :=
  match text.dropWhile fun c => inRanges ignorableRanges c.toNat with
  | c :: _ => inRanges casedRanges c.toNat
  | [] => false

/-- The text in lower case, where `before` holds the characters in front of it from the nearest
on. -/
def lowerFrom (before : List Char) : List Char → List Char
  | [] => []
  | c :: rest =>
    let final := c == 'Σ' && meetsCased before && !meetsCased rest
    (if final then ['ς'] else lowerOf c) ++ lowerFrom (c :: before) rest

end LetterCase

/-- The text in upper case. -/
def upperCase (text : List Char) : List Char := text.flatMap LetterCase.upperOf

/-- The text in lower case. -/
def lowerCase (text : List Char) : List Char := LetterCase.lowerFrom [] text

end Colloquy.Text
