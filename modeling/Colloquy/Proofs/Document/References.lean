import Colloquy.Document.Basic
import Colloquy.Proofs.Code.Lexing
import Colloquy.Proofs.Document.Comments

/-!
# References

A line that is one reference to a variable is shown as the value of the variable.
-/

namespace Colloquy

open Lexer (Identifier)

/-- A reference is a line of an interaction that stays as it is. -/
theorem NumberedLine.stays_reference (name : Identifier) : Stays ("$" ++ name.text) := by
  have whole : ("$" ++ name.text).toList = '$' :: name.chars := by simp
  have absent {c : Char} (apart : Text.isWordChar c = false) : c ∉ name.chars :=
    name.not_mem_of_not_isWordChar apart
  refine stays_of_not_commented whole (by decide) (by decide) ?_ ?_ ?_
  · rw [whole]
    simp [absent (show Text.isWordChar '\n' = false by decide)]
  · intro ends
    have member : '\r' ∈ name.chars := by
      rw [whole, Identifier.chars, List.getLast?_cons_cons] at ends
      exact List.mem_of_getLast? ends
    exact absent (by decide) member
  · refine not_commented_of_not_mem ?_
    rw [whole]
    simp [absent (show Text.isWordChar '/' = false by decide)]

theorem Block.isPlain_reference (number : Nat) (name : Identifier) :
    isPlain ⟨number, "$" ++ name.text⟩ := by
  have solid : Text.isBlank '$' = false := by decide
  simp [isPlain, NumberedLine.isBlank, Text.allBlank, solid, openingTag?]

namespace Exchange

variable (heap : Heap) (lookup : String → Option Value) (name : Identifier)

theorem substitute_nil : substitute heap lookup [] = {} := by
  rw [substitute]

theorem substitute_reference :
    substitute heap lookup ('$' :: name.chars) = reference heap lookup name.chars {} := by
  obtain ⟨taken, left⟩ :=
    @Text.run_append_of_all _ Text.isWordChar name.others [] name.parts (by simp)
  rw [List.append_nil] at taken left
  rw [Identifier.chars, substitute, if_pos name.starts, taken, left, substitute_nil]

/-- A reference to a value that is no marker is shown as the printed form of the value. -/
theorem ofLine_reference (number : Nat) {value : Value} (bound : lookup name.text = some value)
    (printed : ∀ mark, value ≠ .marker mark) :
    ofLine heap lookup ⟨number, "$" ++ name.text⟩ = ([.output (value.text heap)], []) := by
  have whole : ("$" ++ name.text).toList = '$' :: name.chars := by simp
  have shown : reference heap lookup name.chars {} = ⟨(value.text heap).toList, []⟩ := by
    have found : lookup (String.ofList name.chars) = some value := bound
    cases value with
    | marker mark => exact absurd rfl (printed mark)
    | null | bool | char | number | str | array | object =>
      rw [reference, found]
      simp [Substituted.prepend]
  have plain : splitInput ('$' :: name.chars) = ('$' :: name.chars, false) := rfl
  simp [ofLine, whole, plain, substitute_reference, shown]

end Exchange

/-- An interaction of one reference shows the value of the variable. -/
theorem Document.run_reference {document : Document} {name : Identifier} {value : Value}
    (bound : document.value? name.text = some value) (printed : ∀ mark, value ≠ .marker mark)
    (number : Nat) :
    (process (.interaction [⟨number, "$" ++ name.text⟩])).run.run document =
      (.ok (), document.addExchange ⟨[.output (value.text document.session.heap)], []⟩) := by
  have line := Exchange.ofLine_reference document.session.heap document.value? name number bound
    printed
  have exchange : Exchange.ofLines document.session.heap document.value?
      [⟨number, "$" ++ name.text⟩] = ⟨[.output (value.text document.session.heap)], []⟩ := by
    simp [Exchange.ofLines, line]
  rw [← exchange]
  rfl

end Colloquy
