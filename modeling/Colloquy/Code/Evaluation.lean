import Colloquy.Code.Lexer
import Colloquy.Code.Reducer

/-!
# Evaluating code

Lines of code are reduced one after another, up to the first error.  The value is that of the last
line that has one.
-/

namespace Colloquy.Evaluation

open Reducer (Step)

variable {σ : Type}

/-- Reduces the stretches of code from a line on, with the parts pending on that line and the value
of the lines before it. -/
def run (scope : Scope σ) (line : Nat) (stack : Stack) (last : Option Value) :
    List Lexeme → Step σ (Option Value)
  | [] => return (← Reducer.closeLine scope line stack) <|> last
  | lexeme :: rest =>
    match lexeme.token? with
    | none => throw (.parse (.unexpectedToken (String.ofList lexeme.slice) line))
    | some .newLine => do
      let value ← Reducer.closeLine scope line stack
      run scope (line + 1) [] (value <|> last) rest
    | some token => do
      let stack ← Reducer.shift scope line token stack
      run scope line stack last rest

/-- Evaluates code that starts on a line. -/
def evaluate (scope : Scope σ) (source : String) (line : Nat) : Step σ (Option Value) :=
  run scope line [] none (Lexer.lexemes source.toList)

end Colloquy.Evaluation
