import Colloquy.Code.Reducer
import Colloquy.Proofs.Text.Trim

/-!
# Expressions and their direct evaluation

Atoms, sums, calls and constructions as trees, with two readings: the tokens that an expression is
written with, which may be spaced freely, and its value by recursion on the tree.
-/

namespace Colloquy

open Reducer (Step)

namespace Token

/-- The text that a token adds to a literal; tokens of structure add none. -/
def text? : Token → Option String
  | .word text | .char text | .quoted text | .space text => some text
  | _ => none

/-- The text of a run of tokens. -/
def gathered (tokens : List Token) : String :=
  tokens.foldr (fun token rest => token.text?.getD "" ++ rest) ""

/-- The tokens are blanks only. -/
def AreBlanks (tokens : List Token) : Prop :=
  ∀ token ∈ tokens, ∃ text, token = .space text ∧ Text.allBlank text.toList

end Token

/-- A run of text tokens that is not blank. -/
structure Atom where
  /-- The tokens of the run. -/
  tokens : List Token
  /-- Every token of the run is text. -/
  textual : ∀ token ∈ tokens, token.text?.isSome
  /-- The run is not blank. -/
  solid : Text.allBlank (Token.gathered tokens).toList = false

theorem Literal.resolve_isSome {raw : String} (solid : Text.allBlank raw.toList = false)
    (lookup : String → Option Value) : (Literal.resolve lookup raw).isSome := by
  have nonempty : Text.trim raw.toList ≠ [] := by simp [Text.trim_eq_nil_iff, solid]
  unfold Literal.resolve
  simp only [nonempty, if_false]
  split <;> rfl

namespace Atom

/-- The text of the run. -/
def text (atom : Atom) : String := Token.gathered atom.tokens

/-- The value of the run as a literal. -/
def value (atom : Atom) (lookup : String → Option Value) : Value :=
  (Literal.resolve lookup atom.text).get (Literal.resolve_isSome atom.solid lookup)

theorem value_eq_getD (atom : Atom) (lookup : String → Option Value) :
    atom.value lookup = (Literal.resolve lookup atom.text).getD .null :=
  Option.get_eq_getD _

end Atom

mutual

/-- An expression that operations can be called on. -/
inductive Term where
  | atom (atom : Atom)
  | call (receiver : Term) (operation : String) (args : List Expression)
  | new (typeName : String) (args : List Expression)

/-- A sum of one or more terms. -/
inductive Expression where
  | term (term : Term)
  | sum (left : Expression) (right : Term)

end

/-- A line of code: assignments of one expression to any number of variables. -/
structure Statement where
  /-- The variables in the order in which they are written. -/
  names : List String
  /-- The expression behind the last equals sign. -/
  body : Expression

mutual

/-- The stretches of tokens that a term is written with: its atoms, and its single tokens of
structure. -/
def Term.stretches : Term → List (List Token)
  | .atom atom => [atom.tokens]
  | .call receiver operation args =>
    receiver.stretches ++ [.call operation] :: argumentStretches args
  | .new typeName args => [.new typeName] :: argumentStretches args

/-- The stretches of an expression, its terms joined by plus signs. -/
def Expression.stretches : Expression → List (List Token)
  | .term term => term.stretches
  | .sum left right => left.stretches ++ [.plus] :: right.stretches

/-- The stretches of an argument list up to its closing bracket. -/
def argumentStretches : List Expression → List (List Token)
  | [] => [[.close]]
  | arg :: rest => arg.stretches ++ laterStretches rest

/-- The stretches of the arguments behind the first one, each with its comma. -/
def laterStretches : List Expression → List (List Token)
  | [] => [[.close]]
  | arg :: rest => [.comma] :: (arg.stretches ++ laterStretches rest)

end

/-- The stretches of a line. -/
def Statement.stretches (statement : Statement) : List (List Token) :=
  statement.names.map (fun name => [.assign name]) ++ statement.body.stretches

/-- Stretches of tokens one after another, with any blanks before each of them. -/
inductive Spaced : List (List Token) → List Token → Prop where
  | nil : Spaced [] []
  | cons {blanks stretch tokens : List Token} {stretches : List (List Token)} :
    Token.AreBlanks blanks → Spaced stretches tokens →
      Spaced (stretch :: stretches) (blanks ++ (stretch ++ tokens))

/-- The tokens are the line, with blanks before and after its atoms and its tokens of structure. -/
def Statement.Renders (statement : Statement) (tokens : List Token) : Prop :=
  ∃ front back, tokens = front ++ back ∧ Spaced statement.stretches front ∧ Token.AreBlanks back

section Evaluation

variable {σ : Type} (scope : Scope σ) (line : Nat)

/-- The sum of two values, printed in the heap of the moment. -/
def sumOf (left right : Value) : Step σ Value := do
  match left.add (scope.heap (← get)) right with
  | .ok sum => return sum
  | .error error => throw (.runtime line error)

mutual

/-- The value of a term: the receiver first, then the arguments, then the call. -/
def Term.eval : Term → Step σ Value
  | .atom atom => return atom.value (scope.lookup (← get))
  | .call receiver operation args => do
    let receiver ← receiver.eval
    let args ← evalArguments args
    Reducer.onLine line (scope.call operation receiver args)
  | .new typeName args => do
    let args ← evalArguments args
    Reducer.onLine line (scope.construct typeName args)

/-- The value of a sum, added from left to right. -/
def Expression.eval : Expression → Step σ Value
  | .term term => term.eval
  | .sum left right => do
    let left ← left.eval
    let right ← right.eval
    sumOf scope line left right

/-- The values of arguments from left to right. -/
def evalArguments : List Expression → Step σ (List Value)
  | [] => return []
  | arg :: rest => do
    let value ← arg.eval
    let values ← evalArguments rest
    return value :: values

end

/-- Binds variables to a value, one after another. -/
def bindAll (value : Value) : List String → Step σ Unit
  | [] => return
  | name :: rest => do
    scope.assign name value
    bindAll value rest

/-- The value of a line; its variables are bound from right to left afterwards. -/
def Statement.eval (statement : Statement) : Step σ Value := do
  let value ← statement.body.eval scope line
  bindAll scope value statement.names.reverse
  return value

end Evaluation

end Colloquy
