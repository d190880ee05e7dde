import Colloquy.Code.Evaluation
import Colloquy.Proofs.Code.Lexing
import Colloquy.Proofs.Code.Reduction

/-!
# Lines that assign an expression

A line of code whose tokens are known is reduced token by token.  If it assigns a written
expression to a variable, that is the direct evaluation of the expression and one binding.
-/

namespace Colloquy

open Reducer

variable {σ : Type} (scope : Scope σ)

namespace Evaluation

/-- Code on one line is reduced token by token and then completed. -/
theorem run_of_tokens (line : Nat) (stack : Stack) {lexemes : List Lexeme} {tokens : List Token}
    (lexed : lexemes.map (·.token?) = tokens.map some) (inLine : .newLine ∉ tokens) :
    run scope line stack none lexemes =
      shiftAll scope line tokens stack >>= closeLine scope line := by
  induction lexemes generalizing stack tokens with
  | nil =>
    cases tokens with
    | nil => simp [run, shiftAll]
    | cons token tokens => cases lexed
  | cons lexeme lexemes ih =>
    cases tokens with
    | nil => cases lexed
    | cons token tokens =>
      obtain ⟨here, later⟩ : lexeme.token? = some token ∧ _ := List.cons.inj lexed
      have others (stack : Stack) := ih stack later fun member => inLine (.tail _ member)
      have goesOn : token ≠ .newLine := fun ends => inLine (ends ▸ .head _)
      rw [shiftAll, bind_assoc, run]
      split
      · rename_i none
        cases here.symm.trans none
      · rename_i ends
        cases here.symm.trans ends
        exact absurd rfl goesOn
      · rename_i other found
        cases here.symm.trans found
        congr 1
        funext stack
        exact others stack

theorem evaluate_of_tokens (line : Nat) {source : String} {tokens : List Token}
    (lexed : Lexer.tokens source.toList = tokens.map some) (inLine : .newLine ∉ tokens) :
    evaluate scope source line = reduceLine scope line tokens :=
  run_of_tokens scope line [] lexed inLine

end Evaluation

namespace Reducer

/-- An assignment on its own binds the value of the expression behind it. -/
theorem reduceLine_assignment (line : Nat) (name : String) {expression : Expression}
    {tokens : List Token} (spaced : Spaced expression.stretches tokens) :
    reduceLine scope line (.space " " :: .assign name :: tokens) = do
      let value ← expression.eval scope line
      scope.assign name value
      return some value := by
  have ready : Ready [] := fun frame member => by cases member
  have blank : Indented [] [.literal " "] := .blank (by decide +kernel)
  have assigned : reduceLine scope line (.space " " :: .assign name :: tokens) =
      shiftAll scope line tokens ([name].map Frame.assignment) >>= closeLine scope line := by
    rw [reduceLine, shiftAll, shift_space, pure_bind, pushSpace_ready ready, shiftAll,
      shift_assign scope line name ready blank, pure_bind]
    rfl
  rw [assigned, shift_expression expression (open_assignments [name]) spaced
    (finishes_closeLine scope line _)]
  simp only [settle_assignments, bindAll, bind_assoc, pure_bind]

end Reducer

/-- A stretch with a space before it. -/
theorem Spaced.cons_space {stretch tokens : List Token} {stretches : List (List Token)}
    (later : Spaced stretches tokens) :
    Spaced (stretch :: stretches) (.space " " :: (stretch ++ tokens)) := by
  have blank : Token.AreBlanks [.space " "] := by
    intro token member
    exact ⟨" ", List.mem_singleton.1 member, by decide +kernel⟩
  exact .cons blank later

/-- A line that assigns a written expression binds the value of the expression. -/
theorem Evaluation.evaluate_assignment (line : Nat) (name : Lexer.Identifier) {body : String}
    {expression : Expression} {tokens : List Token}
    (lexed : Lexer.tokens body.toList = tokens.map some) (inLine : .newLine ∉ tokens)
    (spaced : Spaced expression.stretches tokens) :
    evaluate scope (" " ++ name.text ++ " =" ++ body) line = do
      let value ← expression.eval scope line
      scope.assign name.text value
      return some value := by
  have source : (" " ++ name.text ++ " =" ++ body).toList =
      ' ' :: (name.chars ++ ' ' :: '=' :: body.toList) := by
    simp
  have solid : ∀ c ∈ (name.chars ++ ' ' :: '=' :: body.toList).head?, Text.isSpacing c = false := by
    rintro c first
    cases first
    exact Text.not_isSpacing_of_isWordChar (Text.isWordChar_of_isNameStart name.starts)
  have all : Lexer.tokens (" " ++ name.text ++ " =" ++ body).toList =
      (.space " " :: .assign name.text :: tokens).map some := by
    rw [source, Lexer.tokens_space solid, Lexer.tokens_assign, lexed]
    rfl
  rw [evaluate_of_tokens scope line all (by simpa using inLine),
    reduceLine_assignment scope line name.text spaced]

end Colloquy
