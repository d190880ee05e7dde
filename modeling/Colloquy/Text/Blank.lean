/-!
# Blanks

The white space characters, and texts without the blanks at their ends.
-/

namespace Colloquy.Text

/-- The characters with the Unicode property `White_Space`. -/
def isBlank (c : Char) : Bool :=
  let point := c.toNat
  (0x09 ≤ point && point ≤ 0x0d) || point == 0x20 || point == 0x85 || point == 0xa0
    || point == 0x1680 || (0x2000 ≤ point && point ≤ 0x200a) || point == 0x2028
    || point == 0x2029 || point == 0x202f || point == 0x205f || point == 0x3000

/-- A space or a tab, the blanks inside one statement. -/
def isSpacing (c : Char) : Bool := c == ' ' || c == '\t'

/-- The text after its leading blanks. -/
def trimStart (text : List Char) : List Char := text.dropWhile isBlank

/-- The text before its trailing blanks. -/
def trimEnd (text : List Char) : List Char := (text.reverse.dropWhile isBlank).reverse

/-- The text between its leading and its trailing blanks. -/
def trim (text : List Char) : List Char := trimEnd (trimStart text)

/-- There is nothing but blanks in the text. -/
def allBlank (text : List Char) : Bool := text.all isBlank

/-- A string without the blanks at its ends. -/
def trimmed (text : String) : String := String.ofList (trim text.toList)

end Colloquy.Text
