import Colloquy.Proofs.Code.Expression
import Colloquy.Proofs.Code.Lexing
import Colloquy.Proofs.Number.Wholes
import Colloquy.Proofs.Signature.Reading

/-!
# Numbers and quoted texts as operands

How whole numbers and quoted texts are cut into tokens, and the values of the atoms that these
tokens make.
-/

namespace Colloquy

open Reducer (Step)
open Text (isWordChar)

/-- The tokens of the decimal text of a number: a minus sign is a token of its own. -/
def Token.numeral (value : Int) : List Token :=
  (if value < 0 then [.char "-"] else []) ++ [.word (String.ofList (Reading.digits value))]

theorem Token.gathered_numeral (value : Int) : gathered (numeral value) = toString value := by
  rw [← String.toList_inj, Reading.toList_toString, Reading.sign, numeral]
  split <;> simp [gathered, text?]

theorem Token.newLine_not_mem_numeral (value : Int) : .newLine ∉ numeral value := by
  unfold numeral
  split <;> simp

theorem Lexer.tokens_numeral (value : Int) {rest : List Char}
    (ends : ∀ c ∈ rest.head?, isWordChar c = false) :
    tokens ((toString value).toList ++ rest) = (Token.numeral value).map some ++ tokens rest := by
  have digits := tokens_digits (Reading.digits_ne_nil value)
    (fun c member => Reading.isDigit_of_mem_digits member) ends
  rw [Reading.toList_toString, Reading.sign, Token.numeral]
  split
  · rw [List.append_assoc, List.singleton_append, tokens_minus, digits]
    rfl
  · rw [List.nil_append, digits]
    rfl

namespace Atom

/-- A whole number as an operand. -/
def numeral (value : Int) : Atom where
  tokens := Token.numeral value
  textual := by
    unfold Token.numeral
    split <;> simp [Token.text?]
  solid := by
    rw [Token.gathered_numeral]
    exact Reading.not_allBlank_toString value

theorem value_numeral {value : Int} (fits : Width.long.Holds value)
    {lookup : String → Option Value} (free : lookup (toString value) = none) :
    (numeral value).value lookup = .number (.whole (.ofLiteral fits)) := by
  rw [value_eq_getD, text, numeral, Token.gathered_numeral, Literal.resolve_toString fits free]
  rfl

end Atom

namespace Literal

theorem unquote?_quoted (inner : List Char) : unquote? ('"' :: inner ++ ['"']) = some inner := by
  simp [unquote?]

/-- A quoted text stands for what is between its quotes, whatever variables there are. -/
theorem resolve_quoted (lookup : String → Option Value) (inner : List Char) :
    resolve lookup (String.ofList ('"' :: inner ++ ['"'])) = some (.str (String.ofList inner)) := by
  have untrimmed : Text.trim ('"' :: inner ++ ['"']) = '"' :: inner ++ ['"'] := by
    have solid : Text.isBlank '"' = false := by decide
    refine Text.trim_eq_self ?_ ?_
    · rw [List.cons_append, List.head?_cons]
      rintro c ⟨⟩
      exact solid
    · rw [List.getLast?_concat]
      rintro c ⟨⟩
      exact solid
  rw [resolve, String.toList_ofList, untrimmed, unquote?_quoted]
  rfl

end Literal

namespace Atom

/-- A quoted text as an operand. -/
def quoted (inner : List Char) : Atom where
  tokens := [.quoted (String.ofList ('"' :: inner ++ ['"']))]
  textual := by simp [Token.text?]
  solid := by
    simp [Token.gathered, Token.text?, Text.allBlank, show Text.isBlank '"' = false by decide]

theorem value_quoted (lookup : String → Option Value) (inner : List Char) :
    (quoted inner).value lookup = .str (String.ofList inner) := by
  have text_eq : (quoted inner).text = String.ofList ('"' :: inner ++ ['"']) := by
    simp [text, quoted, Token.gathered, Token.text?]
  rw [value_eq_getD, text_eq, Literal.resolve_quoted]
  rfl

end Atom

section Evaluation

variable {σ : Type} (scope : Scope σ) (line : Nat)

theorem run_atom (atom : Atom) (state : σ) :
    ((Expression.term (.atom atom)).eval scope line).run.run state =
      (.ok (atom.value (scope.lookup state)), state) := by
  rw [Expression.eval, Term.eval]
  rfl

theorem run_sumOf (left right : Value) (state : σ) :
    (sumOf scope line left right).run.run state =
      ((left.add (scope.heap state) right).mapError (.runtime line), state) := by
  rw [sumOf, run_get_bind]
  cases left.add (scope.heap state) right <;> rfl

theorem run_sum (left right : Atom) (state : σ) :
    ((Expression.sum (.term (.atom left)) (.atom right)).eval scope line).run.run state =
      (((left.value (scope.lookup state)).add (scope.heap state)
        (right.value (scope.lookup state))).mapError (.runtime line), state) := by
  rw [Expression.eval, Expression.eval, Term.eval, Term.eval, ← run_sumOf]
  rfl

end Evaluation

end Colloquy
