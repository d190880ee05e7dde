/-!
# Tokens

The tokens of a line of code.  A statement that registers or imports something is one token; text
that has no structure comes as words, blanks and single characters.
-/

namespace Colloquy

/-- The keyword that a declaration starts with. -/
inductive DeclarationKind where
  | constructor
  | static
  | virtual
deriving DecidableEq, Repr

/-- The word that a declaration of the kind starts with. -/
def DeclarationKind.keyword : DeclarationKind → String
  | constructor => "constructor"
  | static => "static"
  | virtual => "virtual"

/-- The kinds of declarations. -/
def DeclarationKind.all : List DeclarationKind := [constructor, static, virtual]

/-- A registration statement. -/
structure Declaration where
  /-- What is registered. -/
  kind : DeclarationKind
  /-- The type as it is written. -/
  typeName : String
  /-- The operation, none for a constructor. -/
  operation : Option String
  /-- The parameters between their brackets. -/
  params : String
  /-- The narrowed signature behind the arrow, if there is one. -/
  narrowed : Option String
deriving DecidableEq, Repr

/-- A token of a line of code.  A call and a construction reach to their opening bracket, an
assignment to its equals sign. -/
inductive Token where
  | importType (typeName : String)
  | declaration (declaration : Declaration)
  | call (operation : String)
  | new (typeName : String)
  | assign (name : String)
  | comma
  | close
  | plus
  | quoted (text : String)
  | word (text : String)
  | space (text : String)
  | char (text : String)
  | newLine
deriving DecidableEq, Repr

/-- A stretch of code: a token, or none for a declaration without an operation. -/
structure Lexeme where
  /-- The characters of the stretch. -/
  slice : List Char
  /-- The token they stand for. -/
  token? : Option Token
deriving DecidableEq, Repr

end Colloquy
