import Colloquy.Code.Evaluation
import Colloquy.Proofs.Code.LineEnds
import Colloquy.Proofs.Signature.Reading

/-!
# What stretches cover

The stretches of a text leave nothing out: put together they are the text again, and each of its
line ends is a token of its own, so lines are counted as they stand in the text.
-/

namespace Colloquy

namespace Lexeme

/-- The stretches that are line ends. -/
def lineEnds (stretches : List Lexeme) : Nat :=
  stretches.countP fun lexeme => lexeme.token? = some .newLine

end Lexeme

namespace Lexer

/-- Stretches cover a text: nothing is lost, and line ends stay by themselves. -/
structure Covers (text : List Char) (stretches : List Lexeme) : Prop where
  /-- In their order the stretches are the text. -/
  joined : Lexeme.textOf stretches = text
  /-- None of them is empty. -/
  nonempty : ∀ lexeme ∈ stretches, lexeme.slice ≠ []
  /-- No stretch but the token of a line end has a line end in it, and no other is that token. -/
  apart : ∀ lexeme ∈ stretches, '\n' ∈ lexeme.slice ∨ lexeme.token? = some .newLine →
    lexeme = .lineEnd
  /-- Every line end of the text is such a token, at its place. -/
  placed : ∀ before after, text = before ++ '\n' :: after → ∃ front later,
    stretches = front ++ .lineEnd :: later ∧ Lexeme.textOf front = before ∧
      Lexeme.textOf later = after
  /-- There are as many of these tokens as there are line ends. -/
  counted : Lexeme.lineEnds stretches = text.count '\n'
  /-- A stretch without a token is a whole statement that registers an operation, but whose target
  has no dot. -/
  undotted : ∀ lexeme ∈ stretches, lexeme.token? = none → ∃ statement : Registration,
    lexeme.slice = statement.chars ∧ statement.kind ≠ .constructor ∧
      '.' ∉ statement.target.chars

variable {text slice rest : List Char} {token? : Option Token} {stretches : List Lexeme}

/-- Only a statement that registers an operation may be written without declaring anything. -/
theorem Spells.undotted (spells : Spells slice none) : ∃ statement : Registration,
    slice = statement.chars ∧ statement.kind ≠ .constructor ∧ '.' ∉ statement.target.chars := by
  generalize known : (none : Option Token) = token? at spells
  cases spells with
  | declaration statement declares =>
    cases declares with
    | undotted isOperation undotted => exact ⟨statement, rfl, isOperation, undotted⟩
    | constructor | operation => cases known
  | _ => cases known

/-- A written token has a line end in it if it is the line end, and then only one. -/
theorem Spells.count_lineEnd (spells : Spells slice token?) :
    slice.count '\n' = if token? = some .newLine then 1 else 0 := by
  split
  · rename_i ends
    rw [(spells.eq_lineEnd (.inr ends)).1]
    rfl
  · rename_i other
    exact List.count_eq_zero.2 fun member => other (spells.eq_lineEnd (.inl member)).2

theorem Tokenizes.lineEnds_eq (cut : Tokenizes text stretches) :
    Lexeme.lineEnds stretches = text.count '\n' := by
  induction cut with
  | nil => rfl
  | cons longest _ ih =>
    rw [List.count_append, longest.spells.count_lineEnd, ← ih, Lexeme.lineEnds, List.countP_cons,
      Nat.add_comm]
    simp [Lexeme.lineEnds]

/-- The longest written tokens cover a text. -/
theorem Tokenizes.covers (cut : Tokenizes text stretches) : Covers text stretches where
  joined := cut.textOf_eq
  nonempty lexeme member := (cut.spells lexeme member).ne_nil
  apart := by
    rintro ⟨slice, token?⟩ member ends
    obtain ⟨rfl, rfl⟩ := (cut.spells _ member).eq_lineEnd ends
    rfl
  placed := by
    rintro before after rfl
    obtain rfl := tokenizes_iff.1 cut
    exact ⟨lexemes before, lexemes after, lexemes_lineEnd before after,
      (tokenizes_lexemes before).textOf_eq, (tokenizes_lexemes after).textOf_eq⟩
  counted := cut.lineEnds_eq
  undotted := by
    rintro ⟨slice, _⟩ member rfl
    exact (cut.spells _ member).undotted

end Lexer

namespace Evaluation

open Reducer (Step)

variable {σ : Type} (scope : Scope σ)

/-- Where the evaluation of code has come to. -/
structure Place where
  /-- The line. -/
  line : Nat
  /-- The parts pending on that line. -/
  stack : Stack
  /-- The value of the lines before it. -/
  last : Option Value

/-- Evaluates one stretch. -/
def advance (place : Place) (lexeme : Lexeme) : Step σ Place :=
  match lexeme.token? with
  | none => throw (.parse (.unexpectedToken (String.ofList lexeme.slice) place.line))
  | some .newLine => do
    let value ← Reducer.closeLine scope place.line place.stack
    return ⟨place.line + 1, [], value <|> place.last⟩
  | some token => do
    let stack ← Reducer.shift scope place.line token place.stack
    return { place with stack }

/-- The value at the end of the code. -/
def conclude (place : Place) : Step σ (Option Value) :=
  return (← Reducer.closeLine scope place.line place.stack) <|> place.last

theorem run_cons (place : Place) (lexeme : Lexeme) (rest : List Lexeme) :
    run scope place.line place.stack place.last (lexeme :: rest) =
      advance scope place lexeme >>= fun next =>
        run scope next.line next.stack next.last rest := by
  obtain ⟨slice, token?⟩ := lexeme
  cases token? with
  | none => rfl
  | some token =>
    cases token with
    | newLine => simp only [run, advance, bind_assoc, pure_bind]
    | _ => simp only [run, advance, bind_assoc, pure_bind]

/-- Evaluation takes one stretch after another. -/
theorem run_eq_foldlM (place : Place) (lexemes : List Lexeme) :
    run scope place.line place.stack place.last lexemes =
      lexemes.foldlM (advance scope) place >>= conclude scope := by
  induction lexemes generalizing place with
  | nil => rw [List.foldlM_nil, pure_bind, run, conclude]
  | cons lexeme rest ih => simp only [run_cons, List.foldlM_cons, bind_assoc, ih]

/-- A stretch moves the line on if it is a line end. -/
theorem gives_advance (place : Place) (lexeme : Lexeme) :
    Gives (fun next : Place => next.line = place.line + Lexeme.lineEnds [lexeme])
      (advance scope place lexeme) := by
  unfold advance
  split
  · exact gives_throw _
  · rename_i ends
    exact gives_bind (gives_any _) fun _ _ => gives_pure (by simp [Lexeme.lineEnds, ends])
  · rename_i token other known
    have stays : lexeme.token? ≠ some .newLine := by
      rw [known]
      exact fun same => other (Option.some.inj same)
    exact gives_bind (gives_any _) fun _ _ => gives_pure (by simp [Lexeme.lineEnds, stays])

/-- The line after a number of stretches is behind all line ends among them. -/
theorem gives_advances (place : Place) (lexemes : List Lexeme) :
    Gives (fun next : Place => next.line = place.line + Lexeme.lineEnds lexemes)
      (lexemes.foldlM (advance scope) place) := by
  induction lexemes generalizing place with
  | nil => exact gives_pure rfl
  | cons lexeme rest ih =>
    rw [List.foldlM_cons]
    refine gives_bind (gives_advance scope place lexeme) fun next moved => ?_
    intro before after result success
    rw [ih next before after result success, moved]
    simp only [Lexeme.lineEnds, List.countP_cons, List.countP_nil]
    omega

/-- Code is cut in just one way into the longest written tokens.  They cover it, and evaluation
takes them in their order, so it ends on the line behind all line ends of the code. -/
theorem evaluate_covers (source : String) (line : Nat) :
    (∀ stretches, Lexer.Tokenizes source.toList stretches ↔
      stretches = Lexer.lexemes source.toList) ∧
    Lexer.Covers source.toList (Lexer.lexemes source.toList) ∧
    evaluate scope source line =
      (Lexer.lexemes source.toList).foldlM (advance scope) ⟨line, [], none⟩ >>= conclude scope ∧
    Gives (fun place : Place => place.line = line + source.toList.count '\n')
      ((Lexer.lexemes source.toList).foldlM (advance scope) ⟨line, [], none⟩) := by
  have covers := (Lexer.tokenizes_lexemes source.toList).covers
  refine ⟨fun _ => Lexer.tokenizes_iff, covers, run_eq_foldlM scope ⟨line, [], none⟩ _, ?_⟩
  rw [← covers.counted]
  exact gives_advances scope ⟨line, [], none⟩ _

end Evaluation

end Colloquy
