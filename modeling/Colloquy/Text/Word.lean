/-!
# Words

The ASCII characters of names in code and in references.
-/

namespace Colloquy.Text

/-- An ASCII letter, a digit or an underscore. -/
def isWordChar (c : Char) : Bool := c.isAlphanum || c == '_'

/-- An ASCII letter or an underscore. -/
def isNameStart (c : Char) : Bool := c.isAlpha || c == '_'

end Colloquy.Text
