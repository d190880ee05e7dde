import Colloquy.Proofs.Code.Coverage
import Colloquy.Proofs.Code.Location
import Colloquy.Proofs.Code.Nesting
import Colloquy.Proofs.Code.Operands

/-!
# Lines without structure

A line of words, blanks, quoted texts, other characters, commas and closing brackets has no
structure: it is one literal, the whole line as it is written.
-/

namespace Colloquy

namespace Literal

/-- A value that takes at most one look at a variable. -/
inductive Query where
  | known (value : Option Value)
  | ask (name : String) (value : Option Value → Option Value)

namespace Query

/-- The value where variables have the given values. -/
def value (lookup : String → Option Value) : Query → Option Value
  | known value => value
  | ask name value => value (lookup name)

/-- The variable that is looked at. -/
def name? : Query → Option String
  | known _ => none
  | ask name _ => some name

end Query

/-- The question that the value of a text comes down to. -/
def query (raw : String) : Query :=
  let text := Text.trim raw.toList
  if text = [] then .known none
  else match unquote? text with
    | some inner => .known (some (.str (String.ofList inner)))
    | none =>
      let name := String.ofList text
      .ask name fun found => some (found.getD (ofText name))

theorem resolve_eq_query (lookup : String → Option Value) (raw : String) :
    resolve lookup raw = (query raw).value lookup := by
  unfold resolve query
  dsimp only
  split
  · rfl
  · cases unquote? (Text.trim raw.toList) <;> rfl

/-- No variable is asked for but the one that the trimmed text names. -/
theorem eq_trimmed_of_query {raw name : String} (asked : (query raw).name? = some name) :
    name = Text.trimmed raw := by
  unfold query at asked
  dsimp only at asked
  split at asked
  · cases asked
  · split at asked
    · cases asked
    · exact (Option.some.inj asked).symm

theorem resolve_eq_none_iff {lookup : String → Option Value} {raw : String} :
    resolve lookup raw = none ↔ Text.allBlank raw.toList := by
  rw [← Text.trim_eq_nil_iff, resolve]
  dsimp only
  split
  · simp_all
  · split <;> simp_all

end Literal

namespace Reducer

variable {σ : Type} (scope : Scope σ) (line : Nat)

/-- The literal that text has gathered in. -/
def gathering (text : String) : Stack := if text = "" then [] else [.literal text]

theorem pushSpace_gathering {written : String} (nonempty : written ≠ "") (text : String) :
    pushSpace written (gathering text) = gathering (text ++ written) := by
  have more : text ++ written ≠ "" := fun empty => nonempty (String.append_eq_empty_iff.1 empty).2
  rw [gathering, gathering, if_neg more]
  split
  · rename_i empty
    rw [empty, String.empty_append]
    rfl
  · rfl

theorem gathering_unfinished (text : String) (value : Value) (rest : Stack) :
    gathering text ≠ .computed value :: rest := by
  unfold gathering
  split <;> simp

theorem inCall_gathering (text : String) : inCall (gathering text) = false := by
  unfold gathering
  split <;> rfl

theorem takeOperand_gathering (lookup : String → Option Value) (text : String) :
    takeOperand lookup (gathering text) = (Literal.resolve lookup text, []) := by
  unfold gathering
  split
  · rename_i empty
    rw [empty]
    rfl
  · rfl

/-- A plain token adds its text to the literal. -/
theorem shift_plain {token : Token} {written : String} (nonempty : written ≠ "")
    (plain : token.plain? = some written) (text : String) :
    shift scope line token (gathering text) = pure (gathering (text ++ written)) := by
  have pushed : (liftM (pushText line written (gathering text)) : Step σ Stack) =
      pure (gathering (text ++ written)) := by
    rw [pushText_eq (gathering_unfinished text), pushSpace_gathering nonempty]
    rfl
  cases token with
  | word | char | quoted =>
    cases plain
    exact pushed
  | space =>
    cases plain
    rw [shift, pushSpace_gathering nonempty]
  | comma =>
    cases plain
    rw [shift, comma, inCall_gathering]
    exact pushed
  | close =>
    cases plain
    rw [shift, close, inCall_gathering]
    exact pushed
  | importType | declaration | call | new | assign | plus | newLine => cases plain

/-- At the end of the line the literal has its value. -/
theorem closeLine_gathering (text : String) (state : σ) :
    (closeLine scope line (gathering text)).run.run state =
      (.ok (Literal.resolve (scope.lookup state) text), state) := by
  rw [closeLine, run_get_bind, takeOperand_gathering]
  rfl

end Reducer

namespace Evaluation

open Reducer (idleScope)

variable {σ : Type} (scope : Scope σ)

/-- Every stretch is a plain token. -/
def Plain (lexemes : List Lexeme) : Prop :=
  ∀ lexeme ∈ lexemes, ∃ token ∈ lexeme.token?, token.plain?.isSome

/-- A plain stretch adds its text to the literal. -/
theorem advance_plain {lexeme : Lexeme} (plain : ∃ token ∈ lexeme.token?, token.plain?.isSome)
    (spells : Lexer.Spells lexeme.slice lexeme.token?) (line : Nat) (text : String)
    (last : Option Value) :
    advance scope ⟨line, Reducer.gathering text, last⟩ lexeme =
      pure ⟨line, Reducer.gathering (text ++ String.ofList lexeme.slice), last⟩ := by
  obtain ⟨slice, token?⟩ := lexeme
  obtain ⟨token, ⟨⟩, isPlain⟩ := plain
  obtain ⟨written, plain⟩ := Option.isSome_iff_exists.1 isPlain
  have same : written = String.ofList slice :=
    String.toList_inj.1 (by simpa using spells.plain plain)
  have nonempty : written ≠ "" := by
    rw [same]
    simpa using spells.ne_nil
  have shifts := Reducer.shift_plain scope line nonempty plain text
  rw [same] at shifts
  cases token with
  | newLine => cases plain
  | _ =>
    rw [advance]
    simp only [shifts, pure_bind]

/-- Plain stretches gather in one literal. -/
theorem advances_plain {lexemes : List Lexeme} (plain : Plain lexemes)
    (spells : ∀ lexeme ∈ lexemes, Lexer.Spells lexeme.slice lexeme.token?) (line : Nat)
    (text : String) (last : Option Value) :
    lexemes.foldlM (advance scope) ⟨line, Reducer.gathering text, last⟩ =
      pure ⟨line, Reducer.gathering (text ++ String.ofList (Lexeme.textOf lexemes)), last⟩ := by
  induction lexemes generalizing text with
  | nil => simp
  | cons lexeme rest ih =>
    obtain ⟨here, later⟩ := List.forall_mem_cons.1 plain
    obtain ⟨first, others⟩ := List.forall_mem_cons.1 spells
    rw [List.foldlM_cons, advance_plain scope here first, pure_bind, ih later others,
      Lexeme.textOf_cons, String.ofList_append, String.append_assoc]

theorem run_evaluate_plain {source : String} (plain : Plain (Lexer.lexemes source.toList))
    (line : Nat) (state : σ) :
    (evaluate scope source line).run.run state =
      (.ok (Literal.resolve (scope.lookup state) source), state) := by
  have cut := Lexer.tokenizes_lexemes source.toList
  have gathers := advances_plain scope plain cut.spells line "" none
  rw [cut.textOf_eq, String.empty_append, String.ofList_toList] at gathers
  have steps : evaluate scope source line = _ :=
    run_eq_foldlM scope ⟨line, Reducer.gathering "", none⟩ (Lexer.lexemes source.toList)
  rw [steps, gathers, pure_bind, conclude,
    Reducer.run_bind_of_ok (Reducer.closeLine_gathering scope line source state)]
  cases Literal.resolve (scope.lookup state) source <;> rfl

/-- A line of plain tokens is one literal, the line as it is written.  Whatever the scope is, its
value is that of this literal, nothing is done to the state, and at most one variable is looked at:
the one that the trimmed line names. -/
theorem evaluate_plain {source : String} (plain : Plain (Lexer.lexemes source.toList))
    (line : Nat) (state : σ) :
    (evaluate scope source line).run.run state =
      (.ok (Literal.resolve (scope.lookup state) source), state) ∧
    (Literal.resolve (scope.lookup state) source = none ↔ Text.allBlank source.toList) ∧
    Literal.resolve (scope.lookup state) source =
      (Literal.query source).value (scope.lookup state) ∧
    ∀ name ∈ (Literal.query source).name?, name = Text.trimmed source :=
  ⟨run_evaluate_plain scope plain line state, Literal.resolve_eq_none_iff,
    Literal.resolve_eq_query _ source, fun _ => Literal.eq_trimmed_of_query⟩

/-- Outside of calls a comma and a bracket are text. -/
theorem evaluate_plain_brackets :
    let source := "a, \"b c\") é"
    Plain (Lexer.lexemes source.toList) ∧
      (evaluate idleScope source 3).run.run () = (.ok (some (.str source)), ()) ∧
      ∀ name ∈ (Literal.query source).name?, name = source := by
  intro source
  have lexed : Lexer.lexemes source.toList =
      [⟨['a'], some (.word "a")⟩, ⟨[','], some .comma⟩, ⟨[' '], some (.space " ")⟩,
        ⟨['"', 'b', ' ', 'c', '"'], some (.quoted "\"b c\"")⟩, ⟨[')'], some .close⟩,
        ⟨[' '], some (.space " ")⟩, ⟨['é'], some (.char "é")⟩] := by
    decide +kernel
  have plain : Plain (Lexer.lexemes source.toList) := by
    rw [lexed]
    simp [Plain, Token.plain?, Token.text?]
  have whole : Text.trim source.toList = source.toList := by decide +kernel
  have value : Literal.resolve (idleScope.lookup ()) source = some (.str source) := by
    have unquoted : Literal.unquote? source.toList = none := by decide +kernel
    have noNumber : Reading.number? source.toList = none := by decide +kernel
    have solid : source.toList ≠ [] := by decide
    have noKeyword : source ≠ "true" ∧ source ≠ "false" ∧ source ≠ "null" := by decide
    simp [Literal.resolve, whole, solid, unquoted, Literal.ofText, noKeyword, noNumber, idleScope]
  obtain ⟨runs, -, -, asks⟩ := evaluate_plain idleScope plain 3 ()
  rw [value] at runs
  refine ⟨plain, runs, fun name asked => ?_⟩
  rw [asks name asked, Text.trimmed, whole, String.ofList_toList]

end Evaluation

end Colloquy
