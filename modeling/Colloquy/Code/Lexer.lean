import Colloquy.Code.Token
import Colloquy.Text.Blank
import Colloquy.Text.Cut
import Colloquy.Text.Word

/-!
# From text to tokens

Each rule looks for one form of token at the start of a text, and the longest find is taken.  All
rules together cover every text.
-/

namespace Colloquy.Lexer

open Text (isWordChar isNameStart)

/-- A character of a dotted type name. -/
def isTypeChar (c : Char) : Bool := isWordChar c || c == '.' || c == '$'

/-- A character of a type name that may be an array. -/
def isReturnChar (c : Char) : Bool := isTypeChar c || c == '[' || c == ']'

/-- A character that no rule takes together with others: neither of a word, nor a blank, nor a line
end, nor a token of its own. -/
def isOther (c : Char) : Bool :=
  !(isWordChar c || Text.isSpacing c || c == '\n' || c == ',' || c == ')' || c == '+')

/-- The text after its leading spaces and tabs. -/
def skipSpacing (text : List Char) : List Char := text.dropWhile Text.isSpacing

/-- The text after one or more spaces and tabs. -/
def afterSpacing? : List Char → Option (List Char)
  | c :: rest => if Text.isSpacing c then some (skipSpacing rest) else none
  | [] => none

/-- The text after a word. -/
def after? (word : String) (text : List Char) : Option (List Char) :=
  word.toList.isPrefixOf? text

/-- A name with the given further characters, and the text after it. -/
def name? (isPart : Char → Bool) : List Char → Option (List Char × List Char)
  | c :: rest =>
    if isNameStart c then some (c :: rest.takeWhile isPart, rest.dropWhile isPart) else none
  | [] => none

/-- Text between brackets on one line, the brackets included, and the text after it. -/
def bracketed? : List Char → Option (List Char × List Char)
  | '(' :: rest =>
    let isInner (c : Char) : Bool := c != ')' && c != '\n'
    match rest.dropWhile isInner with
    | ')' :: after => some ('(' :: rest.takeWhile isInner ++ [')'], after)
    | _ => none
  | _ => none

/-- A token at the start of a text, and the text after it. -/
structure Found where
  /-- The token, none for a malformed declaration. -/
  token? : Option Token
  /-- The text after it. -/
  rest : List Char

/-- A rule looks for one form of token at the start of a text. -/
abbrev Rule := List Char → Option Found

/-- The type name behind a keyword, and the text after it. -/
def typeAfter? (keyword : String) (text : List Char) : Option (List Char × List Char) := do
  let text ← after? keyword text
  let text ← afterSpacing? text
  name? isTypeChar text

/-- Finds `import T`. -/
def importRule : Rule := fun text => do
  let (typeName, rest) ← typeAfter? "import" text
  return ⟨some (.importType (String.ofList typeName)), rest⟩

/-- The text after the return type `: R` at the start of a text. -/
def afterReturn? (text : List Char) : Option (List Char) := do
  let text ← after? ":" (skipSpacing text)
  let (_, rest) ← name? isReturnChar (skipSpacing text)
  return rest

/-- The text after a narrowed signature behind an arrow, and after its return type if there is
one. -/
def afterNarrowed? (text : List Char) : Option (List Char) := do
  let text ← after? "->" (skipSpacing text)
  let (_, rest) ← bracketed? (skipSpacing text)
  return (afterReturn? rest).getD rest

/-- The text after a registration statement. -/
def afterDeclaration? (text : List Char) : Option (List Char) := do
  let (_, text) ← DeclarationKind.all.findSome? fun kind => typeAfter? kind.keyword text
  let (_, rest) ← bracketed? (skipSpacing text)
  return (afterNarrowed? rest).getD rest

/-- The declaration of a kind for a written target; an operation stands behind the last dot. -/
def declaration? (kind : DeclarationKind) (target params : List Char)
    (narrowed : Option (List Char)) : Option Declaration :=
  let params := String.ofList params
  let narrowed := narrowed.map String.ofList
  match kind with
  | .constructor => some ⟨kind, String.ofList target, none, params, narrowed⟩
  | _ => (Text.cutAtLast? '.' target).map fun (typeName, operation) =>
    ⟨kind, String.ofList typeName, some (String.ofList operation), params, narrowed⟩

/-- The declaration that a registration statement makes.  The statement is split once more: at its
first blank, its first brackets and the arrow behind them. -/
def declared? (statement : List Char) : Option Declaration := do
  let (keyword, rest) ← Text.cutAtFirst? Text.isSpacing statement
  let kind ← DeclarationKind.all.find? (·.keyword.toList = keyword)
  let (target, rest) ← Text.cutAt? ['('] rest
  let (params, rest) ← Text.cutAt? [')'] rest
  let narrowed := (after? "->" (Text.trim rest)).map Text.trim
  declaration? kind (Text.trim target) ('(' :: params ++ [')']) narrowed

/-- Finds a registration statement. -/
def declarationRule : Rule := fun text => do
  let rest ← afterDeclaration? text
  return ⟨(declared? (text.take (text.length - rest.length))).map .declaration, rest⟩

/-- Finds the opening of a call. -/
def callRule : Rule := fun text => do
  let text ← after? "." text
  let (operation, text) ← name? isWordChar (skipSpacing text)
  let rest ← after? "(" (skipSpacing text)
  return ⟨some (.call (String.ofList operation)), rest⟩

/-- Finds the opening of a construction. -/
def newRule : Rule := fun text => do
  let (typeName, text) ← typeAfter? "new" text
  let rest ← after? "(" (skipSpacing text)
  return ⟨some (.new (String.ofList typeName)), rest⟩

/-- Finds the start of an assignment. -/
def assignRule : Rule := fun text => do
  let (name, text) ← name? isWordChar text
  let rest ← after? "=" (skipSpacing text)
  return ⟨some (.assign (String.ofList name)), rest⟩

/-- Finds a token of one character. -/
def markRule : Rule
  | ',' :: rest => some ⟨some .comma, rest⟩
  | ')' :: rest => some ⟨some .close, rest⟩
  | '+' :: rest => some ⟨some .plus, rest⟩
  | '\n' :: rest => some ⟨some .newLine, rest⟩
  | _ => none

/-- Finds quoted text that is closed on its line. -/
def quotedRule : Rule
  | '"' :: rest =>
    let isInner (c : Char) : Bool := c != '"' && c != '\n'
    match rest.dropWhile isInner with
    | '"' :: after =>
      some ⟨some (.quoted (String.ofList ('"' :: rest.takeWhile isInner ++ ['"']))), after⟩
    | _ => none
  | _ => none

/-- Finds the longest run of characters of one class. -/
def runRule (isPart : Char → Bool) (token : String → Token) : Rule
  | c :: rest =>
    if isPart c then
      some ⟨some (token (String.ofList (c :: rest.takeWhile isPart))), rest.dropWhile isPart⟩
    else none
  | [] => none

/-- Finds a single character that belongs to no other token. -/
def otherRule : Rule
  | c :: rest => if isOther c then some ⟨some (.char (String.singleton c)), rest⟩ else none
  | [] => none

/-- The rules of all tokens. -/
def rules : List Rule :=
  [importRule, declarationRule, callRule, newRule, assignRule, markRule, quotedRule,
    runRule isWordChar .word, runRule Text.isSpacing .space, otherRule]

/-- The find that leaves the shorter rest; of equals the first. -/
def longer (first second : Found) : Found :=
  if second.rest.length < first.rest.length then second else first

/-- The longest find of the rules at the start of a text. -/
def longest? (text : List Char) : Option Found :=
  (rules.filterMap (· text)).foldl
    (fun best found => some (best.elim found (longer · found))) none

/-- The stretch at the start of a text and its length, which is never zero. -/
def first (text : List Char) : Nat × Option Token :=
  match longest? text with
  | some found => (max 1 (text.length - found.rest.length), found.token?)
  | none => (1, none)

/-- The stretches of a text, from its start to its end. -/
def lexemes : List Char → List Lexeme
  | [] => []
  | c :: text =>
    let (length, token?) := first (c :: text)
    ⟨(c :: text).take length, token?⟩ :: lexemes (text.drop (length - 1))
termination_by text => text.length
decreasing_by simp +arith

end Colloquy.Lexer
