import Colloquy.Proofs.Code.Operands
import Colloquy.Proofs.Document.CodeLines
import Colloquy.Proofs.Document.References

/-!
# Sums in documents

A document that assigns the sum of two whole numbers and refers to it shows the sum, if the width of
the operands holds it, and fails otherwise.
-/

namespace Colloquy

namespace Document

open NumberedLine (Stays)
open Reducer (run_bind_of_ok run_bind_of_error)

/-- The sum of two whole numbers as an expression. -/
def wholeSum (left right : Int) : Expression :=
  .sum (.term (.atom (.numeral left))) (.atom (.numeral right))

/-- The tokens of a sum behind an equals sign. -/
def sumTokens (left right : Int) : List Token :=
  .space " " :: (Token.numeral left ++
    .space " " :: .plus :: .space " " :: Token.numeral right)

section Source

variable (left right : Int)

/-- The text of a sum behind an equals sign. -/
def sumText : String := " " ++ toString left ++ " + " ++ toString right

theorem toList_sumText :
    (sumText left right).toList =
      ' ' :: ((toString left).toList ++ ' ' :: '+' :: ' ' :: (toString right).toList) := by
  simp [sumText]

theorem tokens_sum :
    Lexer.tokens (sumText left right).toList = (sumTokens left right).map some := by
  have leftSolid : ∀ c ∈ ((toString left).toList ++ ' ' :: '+' :: ' ' ::
      (toString right).toList).head?, Text.isSpacing c = false := by
    intro c first
    rw [List.head?_append_of_ne_nil _ (Reading.toList_toString_ne_nil left)] at first
    exact Reading.not_isSpacing_of_mem_toString (List.mem_of_mem_head? first)
  have rightSolid : ∀ c ∈ (toString right).toList.head?, Text.isSpacing c = false :=
    fun c first => Reading.not_isSpacing_of_mem_toString (List.mem_of_mem_head? first)
  have final : Lexer.tokens (toString right).toList = (Token.numeral right).map some := by
    have ended : ∀ c ∈ ([] : List Char).head?, Text.isWordChar c = false := by simp
    simpa using Lexer.tokens_numeral right ended
  rw [toList_sumText, Lexer.tokens_space leftSolid, Lexer.tokens_numeral left (by simp; decide),
    Lexer.tokens_space (by simp; decide), Lexer.tokens_plus, Lexer.tokens_space rightSolid, final]
  simp [sumTokens]

theorem newLine_not_mem_sumTokens : .newLine ∉ sumTokens left right := by
  simp [sumTokens, Token.newLine_not_mem_numeral]

theorem spaced_sum : Spaced (wholeSum left right).stretches (sumTokens left right) := by
  have final : Spaced [Token.numeral right] (.space " " :: (Token.numeral right ++ [])) :=
    .cons_space .nil
  rw [List.append_nil] at final
  exact .cons_space (.cons_space final)

theorem not_mem_sumText {c : Char} (solid : c ≠ ' ') (unsigned : c ≠ '+') (positive : c ≠ '-')
    (apart : c.isDigit = false) : c ∉ (sumText left right).toList := by
  have absent := Reading.not_mem_toString positive apart
  simp only [toList_sumText, List.mem_cons, List.mem_append, solid, unsigned, absent, or_self,
    not_false_eq_true]

theorem stays_sum (name : Lexer.Identifier) :
    Stays (">" ++ (" " ++ name.text ++ " =" ++ sumText left right)) := by
  obtain ⟨first, rest, begins⟩ := List.exists_cons_of_ne_nil (Reading.toList_toString_ne_nil left)
  have member : first ∈ (toString left).toList := by
    rw [begins]
    exact .head _
  have whole : (sumText left right).toList =
      ' ' :: first :: (rest ++ ' ' :: '+' :: ' ' :: (toString right).toList) := by
    rw [toList_sumText, begins]
    rfl
  have noSlash : '/' ∉ (sumText left right).toList :=
    not_mem_sumText left right (by decide) (by decide) (by decide) (by decide)
  have noReturn : '\r' ∉ (sumText left right).toList :=
    not_mem_sumText left right (by decide) (by decide) (by decide) (by decide)
  have inLine : '\n' ∉ (sumText left right).toList :=
    not_mem_sumText left right (by decide) (by decide) (by decide) (by decide)
  have other : first ≠ '/' := by
    rintro rfl
    exact noSlash (by simp [whole])
  refine stays_assignment name whole (Reading.not_isSpacing_of_mem_toString member) other inLine
    (fun ends => noReturn (List.mem_of_getLast? ends))
    (NumberedLine.not_commented_of_not_mem fun member => noSlash ?_)
  rw [whole]
  exact .tail _ (.tail _ member)

/-- The sum is assigned before the reference to it is shown. -/
theorem load_assigned_sum (name : Lexer.Identifier) :
    load ("> " ++ name.text ++ " = " ++ toString left ++ " + " ++ toString right ++ "\n$" ++
        name.text) = (do
      runCode ⟨1, " " ++ name.text ++ " =" ++ sumText left right⟩
      process (.interaction [⟨2, "$" ++ name.text⟩])) := by
  have joined :
      "> " ++ name.text ++ " = " ++ toString left ++ " + " ++ toString right ++ "\n$" ++ name.text =
        ">" ++ (" " ++ name.text ++ " =" ++ sumText left right) ++ "\n" ++ ("$" ++ name.text) := by
    rw [← String.toList_inj]
    simp [sumText]
  rw [joined, load_code_shown (stays_sum left right name) (NumberedLine.stays_reference name)
    (Block.isPlain_reference 2 name)]

end Source

section Outcome

variable {left right : Int} {document : Document} {name : Lexer.Identifier}

/-- Where no variables are bound, a sum of literals is the sum of the numbers. -/
theorem eval_wholeSum (leftFits : Width.long.Holds left) (rightFits : Width.long.Holds right)
    (line : Nat) {session : Session} (unbound : session.bindings = []) :
    ((wholeSum left right).eval Session.scope line).run.run session =
      (((Value.number (.whole (.ofLiteral leftFits))).add session.heap
        (.number (.whole (.ofLiteral rightFits)))).mapError (.runtime line), session) := by
  have free (text : String) : Session.scope.lookup session text = none := by
    change session.bindings.get? text = none
    rw [unbound]
    rfl
  rw [wholeSum, run_sum, Atom.value_numeral leftFits (free _),
    Atom.value_numeral rightFits (free _)]
  rfl

/-- A sum that its width holds is bound. -/
theorem run_sum_of_holds (leftFits : Width.long.Holds left) (rightFits : Width.long.Holds right)
    (unbound : document.session.bindings = [])
    (fits : ((Width.ofLiteral left).wider (.ofLiteral right)).Holds (left + right)) (line : Nat) :
    (runCode ⟨line, " " ++ name.text ++ " =" ++ sumText left right⟩).run.run document =
      (.ok (), { document with session := { document.session with
        bindings := [(name.text, .number (.whole ⟨_, left + right, fits⟩))] } }) := by
  have added : (Value.number (.whole (.ofLiteral leftFits))).add document.session.heap
      (.number (.whole (.ofLiteral rightFits))) = .ok (.number (.whole ⟨_, left + right, fits⟩)) :=
    @Value.add_of_holds (.ofLiteral leftFits) (.ofLiteral rightFits) _ fits
  have evaluated := eval_wholeSum leftFits rightFits line unbound
  rw [added] at evaluated
  rw [run_assignment_ok (tokens_sum left right) (newLine_not_mem_sumTokens left right)
    (spaced_sum left right) evaluated, unbound]
  rfl

/-- A sum that its width does not hold changes nothing. -/
theorem run_sum_of_not_holds (leftFits : Width.long.Holds left)
    (rightFits : Width.long.Holds right) (unbound : document.session.bindings = [])
    (unfit : ¬((Width.ofLiteral left).wider (.ofLiteral right)).Holds (left + right))
    (line : Nat) :
    (runCode ⟨line, " " ++ name.text ++ " =" ++ sumText left right⟩).run.run document =
      (.error (.runtime line (.overflow (toString left) (toString right))), document) := by
  have failed : (Value.number (.whole (.ofLiteral leftFits))).add document.session.heap
      (.number (.whole (.ofLiteral rightFits))) =
        .error (.overflow (toString left) (toString right)) :=
    @Value.add_of_not_holds (.ofLiteral leftFits) (.ofLiteral rightFits) _ unfit
  have evaluated := eval_wholeSum leftFits rightFits line unbound
  rw [failed] at evaluated
  exact run_assignment_error (tokens_sum left right) (newLine_not_mem_sumTokens left right)
    (spaced_sum left right) evaluated

end Outcome

/-- Loading the assignment of a sum and a reference to it shows the sum if 32 bits hold it, where
they hold both operands, or if 64 bits hold it, where they do not.  Otherwise the assignment fails
and binds nothing. -/
theorem load_sum (name : Lexer.Identifier) {left right : Int} (leftFits : Width.long.Holds left)
    (rightFits : Width.long.Holds right) (catalog : Catalog) (settings : Settings)
    (order : TableOrder) :
    let source :=
      "> " ++ name.text ++ " = " ++ toString left ++ " + " ++ toString right ++ "\n$" ++ name.text
    let loaded := (load source).run.run (ofCatalog catalog settings order)
    let width : Width := if Width.int.Holds left ∧ Width.int.Holds right then .int else .long
    if width.Holds (left + right) then
      loaded.1 = .ok () ∧ loaded.2.exchanges = [⟨[.output (toString (left + right))], []⟩]
    else
      loaded.1 = .error (.runtime 1 (.overflow (toString left) (toString right))) ∧
        loaded.2.value? name.text = none := by
  intro source loaded width
  have stages : loaded = (runCode ⟨1, " " ++ name.text ++ " =" ++ sumText left right⟩ >>= fun _ =>
      process (.interaction [⟨2, "$" ++ name.text⟩])).run.run
        (ofCatalog catalog settings order) := by
    rw [← load_assigned_sum left right name]
  rw [show width = (Width.ofLiteral left).wider (.ofLiteral right) from
    (Width.wider_ofLiteral left right).symm]
  by_cases fits : ((Width.ofLiteral left).wider (.ofLiteral right)).Holds (left + right)
  · let total : Value := .number (.whole ⟨_, left + right, fits⟩)
    let start := ofCatalog catalog settings order
    let bound : Document :=
      { start with session := { start.session with bindings := [(name.text, total)] } }
    have assigned : (runCode ⟨1, " " ++ name.text ++ " =" ++ sumText left right⟩).run.run
        start = (.ok (), bound) :=
      run_sum_of_holds leftFits rightFits rfl fits 1
    have known : bound.value? name.text = some total := by
      simp [value?, bound, Table.get?_cons]
    have printed : total.text bound.session.heap = toString (left + right) := Value.text_whole _ _
    have shown := run_reference known (by simp [total]) 2
    rw [if_pos fits, stages, run_bind_of_ok assigned, shown, printed]
    exact ⟨rfl, rfl⟩
  · have failed : (runCode ⟨1, " " ++ name.text ++ " =" ++ sumText left right⟩).run.run
        (ofCatalog catalog settings order) =
          (.error (.runtime 1 (.overflow (toString left) (toString right))),
            ofCatalog catalog settings order) :=
      run_sum_of_not_holds leftFits rightFits rfl fits 1
    rw [if_neg fits, stages, run_bind_of_error failed]
    exact ⟨rfl, rfl⟩

/-- One more than 32 bits hold fails where both operands have 32 bits, and is shown where one of
them has 64. -/
theorem load_sum_limits :
    let x : Lexer.Identifier := ⟨'x', [], by decide, by simp⟩
    let narrow := (load "> x = 2147483647 + 1\n$x").run.run (ofCatalog .ofValues {})
    let wide := (load "> x = -1 + 2147483649\n$x").run.run (ofCatalog .ofValues {})
    x.text = "x" ∧ Width.long.Holds 2147483647 ∧ Width.long.Holds 1 ∧ Width.long.Holds (-1) ∧
      Width.long.Holds 2147483649 ∧
      narrow.1 = .error (.runtime 1 (.overflow "2147483647" "1")) ∧ narrow.2.value? "x" = none ∧
      wide.1 = .ok () ∧ wide.2.exchanges = [⟨[.output "2147483648"], []⟩] := by
  intro x narrow wide
  have greatest : Width.long.Holds 2147483647 := by decide
  have one : Width.long.Holds 1 := by decide
  have negative : Width.long.Holds (-1) := by decide
  have beyond : Width.long.Holds 2147483649 := by decide
  have fails := load_sum x greatest one .ofValues {} .ofEntry
  have shows := load_sum x negative beyond .ofValues {} .ofEntry
  exact ⟨rfl, greatest, one, negative, beyond, fails.1, fails.2, shows.1, shows.2⟩

end Document

end Colloquy
