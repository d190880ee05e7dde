import Colloquy.Proofs.Code.Assignment
import Colloquy.Proofs.Document.Comments
import Colloquy.Proofs.Document.Loading

/-!
# Documents of one line of code

A document of one line of code runs that line.  If the line assigns an expression, the outcome is
that of the expression.
-/

namespace Colloquy

namespace Document

open NumberedLine (Stays Commented)
open Reducer (run_bind_of_ok run_bind_of_error)

theorem load_of_scan {source : String} {blocks : List Block}
    (scanned : Block.scan (NumberedLine.ofSource source) = (blocks, none)) :
    load source = processAll blocks := by
  change processScan (Block.scan (NumberedLine.ofSource source)) = _
  rw [scanned]
  exact bind_pure _

theorem load_code {code : String} (stays : Stays (">" ++ code)) :
    load (">" ++ code) = runCode ⟨1, code⟩ := by
  have scanned : Block.scan (NumberedLine.ofSource (">" ++ code)) = ([.code ⟨1, code⟩], none) := by
    rw [stays.2, Block.scan_of_ok (Block.next_code 1 code), Block.scan_nil]
  rw [load_of_scan scanned]
  exact bind_pure _

/-- A line of code before a plain line is run before the plain line is shown. -/
theorem load_code_shown {code shown : String} (staysCode : Stays (">" ++ code))
    (staysShown : Stays shown) (plain : Block.isPlain ⟨2, shown⟩) :
    load (">" ++ code ++ "\n" ++ shown) = (do
      runCode ⟨1, code⟩
      process (.interaction [⟨2, shown⟩])) := by
  have joined : ">" ++ code ++ "\n" ++ shown = "\n".intercalate [">" ++ code, shown] := by
    rw [String.intercalate_cons_cons, String.intercalate_singleton]
  have stay : ∀ text ∈ [">" ++ code, shown], Stays text := by
    simp [staysCode, staysShown]
  have scanned : Block.scan (NumberedLine.ofSource (">" ++ code ++ "\n" ++ shown)) =
      ([.code ⟨1, code⟩, .interaction [⟨2, shown⟩]], none) := by
    rw [joined, NumberedLine.ofSource_intercalate (by simp) stay]
    simp only [NumberedLine.numbered_cons, NumberedLine.numbered_nil]
    rw [Block.scan_of_ok (Block.next_code 1 code), Block.scan_of_ok (Block.next_of_isPlain plain)]
    simp
  rw [load_of_scan scanned]
  simp only [processAll, bind_pure_unit]
  rfl

/-- A line that assigns an expression is not changed if there is no comment behind the first
character of the expression. -/
theorem stays_assignment (name : Lexer.Identifier) {body : String} {first : Char}
    {rest : List Char} (begins : body.toList = ' ' :: first :: rest)
    (solid : Text.isSpacing first = false) (other : first ≠ '/') (inLine : '\n' ∉ body.toList)
    (unended : body.toList.getLast? ≠ some '\r') (uncommented : ¬Commented rest) :
    Stays (">" ++ (" " ++ name.text ++ " =" ++ body)) := by
  have absent {c : Char} (apart : Text.isWordChar c = false) : c ∉ name.chars :=
    name.not_mem_of_not_isWordChar apart
  have whole : (">" ++ (" " ++ name.text ++ " =" ++ body)).toList =
      ('>' :: ' ' :: (name.chars ++ [' ', '=', ' '])) ++ first :: rest := by
    simp [begins]
  have final : (">" ++ (" " ++ name.text ++ " =" ++ body)).toList.getLast? =
      body.toList.getLast? := by
    rw [whole, begins, List.getLast?_append_cons, List.getLast?_cons_cons]
  refine NumberedLine.stays_of_not_commented whole (by decide) (by decide) ?_ ?_ ?_
  · rw [begins] at inLine
    rw [whole]
    simpa [absent (show Text.isWordChar '\n' = false by decide)] using inLine
  · rwa [final]
  · rw [whole]
    refine NumberedLine.not_commented_append ?_ solid other uncommented
    simp [absent (show Text.isWordChar '/' = false by decide)]

section Assignment

variable {document : Document} {session : Session} {line : Nat} {name : Lexer.Identifier}
  {body : String} {tokens : List Token} {expression : Expression}

theorem run_assignment_ok {value : Value} (lexed : Lexer.tokens body.toList = tokens.map some)
    (inLine : .newLine ∉ tokens) (spaced : Spaced expression.stretches tokens)
    (evaluated :
      (expression.eval Session.scope line).run.run document.session = (.ok value, session)) :
    (runCode ⟨line, " " ++ name.text ++ " =" ++ body⟩).run.run document =
      (.ok (), { document with
        session := { session with bindings := session.bindings.put name.text value } }) := by
  rw [run_runCode, Evaluation.evaluate_assignment Session.scope line name lexed inLine spaced,
    run_bind_of_ok evaluated]
  rfl

theorem run_assignment_error {error : Error} (lexed : Lexer.tokens body.toList = tokens.map some)
    (inLine : .newLine ∉ tokens) (spaced : Spaced expression.stretches tokens)
    (failed :
      (expression.eval Session.scope line).run.run document.session = (.error error, session)) :
    (runCode ⟨line, " " ++ name.text ++ " =" ++ body⟩).run.run document =
      (.error error, { document with session }) := by
  rw [run_runCode, Evaluation.evaluate_assignment Session.scope line name lexed inLine spaced,
    run_bind_of_error failed]
  rfl

end Assignment

end Document

end Colloquy
