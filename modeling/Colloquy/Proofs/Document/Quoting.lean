import Colloquy.Proofs.Code.Operands
import Colloquy.Proofs.Document.CodeLines

/-!
# Quoted texts in documents

A line of code that assigns quoted text binds that text as it stands, whatever else it looks like.
Only a comment is cut off before the quotes are seen.
-/

namespace Colloquy

namespace Document

open NumberedLine (Commented Stays)

section Source

variable {text : String}

/-- A quoted text behind an equals sign. -/
def quotation (text : String) : String := " \"" ++ text ++ "\""

theorem toList_quotation (text : String) :
    (quotation text).toList = ' ' :: '"' :: (text.toList ++ ['"']) := by
  simp [quotation]

theorem tokens_quotation (unquoted : '"' ∉ text.toList) (inLine : '\n' ∉ text.toList) :
    Lexer.tokens (quotation text).toList =
      (.space " " :: (Atom.quoted text.toList).tokens).map some := by
  have solid : ∀ c ∈ ('"' :: (text.toList ++ ['"'])).head?, Text.isSpacing c = false := by
    simp
    decide
  have whole := Lexer.tokens_quoted unquoted inLine []
  rw [List.cons_append, Lexer.tokens_nil] at whole
  rw [toList_quotation, Lexer.tokens_space solid, whole]
  rfl

theorem stays_quotation (name : Lexer.Identifier) (inLine : '\n' ∉ text.toList)
    (uncommented : ¬Commented text.toList) :
    Stays (">" ++ (" " ++ name.text ++ " =" ++ quotation text)) := by
  have whole := toList_quotation text
  have single : '\n' ∉ (quotation text).toList := by simp [whole, inLine]
  have unended : (quotation text).toList.getLast? ≠ some '\r' := by
    rw [whole, ← List.cons_append, ← List.cons_append, List.getLast?_concat]
    decide
  exact stays_assignment name whole (by decide) (by decide) single unended
    (NumberedLine.not_commented_concat (by decide) uncommented)

end Source

/-- Loading a line that assigns quoted text binds that text as it stands and changes nothing else.
The text may have any characters but quotes and line ends, and no comment. -/
theorem load_quoted (document : Document) (name : Lexer.Identifier) {text : String}
    (unquoted : '"' ∉ text.toList) (inLine : '\n' ∉ text.toList)
    (uncommented : ¬Commented text.toList) :
    let bound := { document with session := { document.session with
      bindings := document.session.bindings.put name.text (.str text) } }
    (load ("> " ++ name.text ++ " = \"" ++ text ++ "\"")).run.run document = (.ok (), bound) ∧
      bound.value? name.text = some (.str text) ∧
      ∀ other, other ≠ name.text → bound.value? other = document.value? other := by
  intro bound
  have source : "> " ++ name.text ++ " = \"" ++ text ++ "\"" =
      ">" ++ (" " ++ name.text ++ " =" ++ quotation text) := by
    rw [← String.toList_inj]
    simp [quotation]
  have spaced : Spaced (Expression.term (.atom (.quoted text.toList))).stretches
      (.space " " :: (Atom.quoted text.toList).tokens) :=
    .cons_space .nil
  have evaluated :
      ((Expression.term (.atom (.quoted text.toList))).eval Session.scope 1).run.run
        document.session = (.ok (.str text), document.session) := by
    rw [run_atom, Atom.value_quoted, String.ofList_toList]
  refine ⟨?_, Table.get?_put_self _ _ _, fun other different => Table.get?_put_of_ne different _ _⟩
  rw [source, load_code (stays_quotation name inLine uncommented)]
  exact run_assignment_ok (tokens_quotation unquoted inLine) (by simp [Atom.quoted]) spaced
    evaluated

/-- Signs of every other kind stand for themselves between quotes, blanks and slashes included. -/
theorem load_quoted_signs :
    let x : Lexer.Identifier := ⟨'x', [], by decide, by simp⟩
    let text := " $y + <code>.f(1, ) = http://z "
    let document := ofCatalog .ofValues {}
    let bound := { document with session := { document.session with
      bindings := document.session.bindings.put x.text (.str text) } }
    '"' ∉ text.toList ∧ '\n' ∉ text.toList ∧ ¬Commented text.toList ∧
      (load ("> " ++ x.text ++ " = \"" ++ text ++ "\"")).run.run document = (.ok (), bound) ∧
      bound.value? x.text = some (.str text) ∧
      ∀ other, other ≠ x.text → bound.value? other = document.value? other := by
  intro x text document bound
  have unquoted : '"' ∉ text.toList := by decide +kernel
  have inLine : '\n' ∉ text.toList := by decide +kernel
  have uncommented : ¬Commented text.toList := by decide +kernel
  exact ⟨unquoted, inLine, uncommented, load_quoted document x unquoted inLine uncommented⟩

/-- Two slashes behind a blank begin a comment between quotes, too, and what is left of the line is
bound with the opening quote. -/
theorem load_quoted_comment :
    let text := "a // b"
    let loaded := (load ("> x = \"" ++ text ++ "\"")).run.run (ofCatalog .ofValues {})
    '"' ∉ text.toList ∧ '\n' ∉ text.toList ∧ '\r' ∉ text.toList ∧ loaded.1 = .ok () ∧
      loaded.2.value? "x" = some (.str "\"a") ∧ loaded.2.value? "x" ≠ some (.str text) := by
  intro text loaded
  have read : (loaded.2.value? "x").bind Value.str? = some "\"a" := by decide +kernel
  have bound : loaded.2.value? "x" = some (.str "\"a") := by
    obtain ⟨value, found, same⟩ := Option.bind_eq_some_iff.1 read
    cases value <;> cases same
    exact found
  refine ⟨by decide +kernel, by decide +kernel, by decide +kernel, by decide +kernel, bound, ?_⟩
  rw [bound]
  simp [text]

end Document

end Colloquy
