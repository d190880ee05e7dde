import Mathlib.Data.List.ReduceOption
import Colloquy.Proofs.Code.LineEnds
import Colloquy.Proofs.Code.Location
import Colloquy.Proofs.Code.Nesting

/-!
# Evaluation line by line

The lines of a source are evaluated one after another, each as if it stood alone on its line.
-/

namespace Colloquy.Evaluation

open Reducer

variable {σ : Type} (scope : Scope σ)

/-- The values of lines from a number on, each evaluated on its own, up to the first error. -/
def evaluateLines (number : Nat) (lines : List String) : Step σ (List (Option Value)) :=
  (lines.zipIdx number).mapM fun (line, number) => evaluate scope line number

theorem evaluateLines_cons (number : Nat) (line : String) (rest : List String) :
    evaluateLines scope number (line :: rest) = do
      let value ← evaluate scope line number
      let values ← evaluateLines scope (number + 1) rest
      return value :: values := by
  rw [evaluateLines, List.zipIdx_cons, List.mapM_cons]
  rfl

/-- The value of the lines before counts only if the code has none. -/
theorem run_last (line : Nat) (stack : Stack) (last : Option Value) (lexemes : List Lexeme) :
    run scope line stack last lexemes = do
      let value ← run scope line stack none lexemes
      return value <|> last := by
  induction lexemes generalizing line stack last with
  | nil => simp [run]
  | cons lexeme rest ih =>
    unfold run
    split
    · rfl
    · rw [bind_assoc]
      congr 1
      funext value
      rw [ih (line + 1) [] (value <|> last), ih (line + 1) [] (value <|> none), bind_assoc]
      congr 1
      funext later
      cases later <;> cases value <;> rfl
    · rw [bind_assoc]
      congr 1
      funext stack
      exact ih line stack last

/-- A line end settles its line, and the code after it starts afresh on the next one. -/
theorem run_lineEnd (line : Nat) (stack : Stack) {front : List Lexeme} (rest : List Lexeme)
    (inLine : ∀ lexeme ∈ front, lexeme.token? ≠ some .newLine) :
    run scope line stack none (front ++ ⟨['\n'], some .newLine⟩ :: rest) = (do
      let value ← run scope line stack none front
      run scope (line + 1) [] value rest) := by
  induction front generalizing stack with
  | nil => simp [run]
  | cons lexeme front ih =>
    have here := inLine lexeme (.head _)
    have later (stack : Stack) := ih stack fun lexeme member => inLine lexeme (.tail _ member)
    rw [List.cons_append, run, run]
    split
    · rfl
    · rename_i ends
      exact absurd ends here
    · rw [bind_assoc]
      congr 1
      funext stack
      exact later stack

theorem evaluate_lineEnd {line : String} (single : '\n' ∉ line.toList) (rest : String)
    (number : Nat) :
    evaluate scope (line ++ "\n" ++ rest) number = do
      let value ← evaluate scope line number
      let later ← evaluate scope rest (number + 1)
      return later <|> value := by
  have split : (line ++ "\n" ++ rest).toList = line.toList ++ '\n' :: rest.toList := by simp
  rw [evaluate, split, Lexer.lexemes_lineEnd,
    run_lineEnd scope number [] _ (Lexer.lexemes_inLine single)]
  congr 1
  funext value
  exact run_last scope (number + 1) [] value (Lexer.lexemes rest.toList)

/-- Code without line ends fails on the line that it stands on. -/
theorem located_evaluate {line : String} (single : '\n' ∉ line.toList) :
    Located fun number => evaluate scope line number :=
  located_run scope [] none (Lexer.lexemes_inLine single)

theorem getLast?_reduceOption_cons (value : Option Value) (values : List (Option Value)) :
    (value :: values).reduceOption.getLast? = (values.reduceOption.getLast? <|> value) := by
  cases value with
  | none => simp
  | some value =>
    rw [List.reduceOption_cons_of_some, List.getLast?_cons]
    cases values.reduceOption.getLast? <;> rfl

theorem evaluate_joined {lines : List String} (single : ∀ line ∈ lines, '\n' ∉ line.toList)
    (number : Nat) :
    evaluate scope ("\n".intercalate lines) number = do
      let values ← evaluateLines scope number lines
      return values.reduceOption.getLast? := by
  induction lines generalizing number with
  | nil =>
    rw [String.intercalate_nil, evaluate, String.toList_empty, Lexer.lexemes]
    rfl
  | cons line rest ih =>
    cases rest with
    | nil =>
      have alone (value : Option Value) : [value].reduceOption.getLast? = value := by
        cases value <;> rfl
      rw [String.intercalate_singleton, evaluateLines_cons]
      simp only [evaluateLines, List.zipIdx_nil, List.mapM_nil, bind_assoc, pure_bind, alone,
        bind_pure]
    | cons next rest =>
      have later := ih (fun line member => single line (.tail _ member)) (number + 1)
      rw [String.intercalate_cons_cons, evaluate_lineEnd scope (single line (.head _)), later,
        evaluateLines_cons scope number line]
      simp only [bind_assoc, pure_bind, getLast?_reduceOption_cons]

/-- Lines that fail do so at one of them, after those before it succeeded. -/
theorem evaluateLines_error {number : Nat} {lines : List String} {state after : σ} {error : Error}
    (fails : (evaluateLines scope number lines).run.run state = (.error error, after)) :
    ∃ before line rest values middle, lines = before ++ line :: rest ∧
      (evaluateLines scope number before).run.run state = (.ok values, middle) ∧
      (evaluate scope line (number + before.length)).run.run middle = (.error error, after) := by
  induction lines generalizing number state with
  | nil => cases fails
  | cons line rest ih =>
    rw [evaluateLines_cons] at fails
    cases first : (evaluate scope line number).run.run state with
    | mk outcome middle =>
      cases outcome with
      | error fault =>
        rw [run_bind_of_error first] at fails
        cases fails
        exact ⟨[], line, rest, [], state, rfl, rfl, first⟩
      | ok value =>
        rw [run_bind_of_ok first] at fails
        cases later : (evaluateLines scope (number + 1) rest).run.run middle with
        | mk outcome ending =>
          cases outcome with
          | ok values =>
            rw [run_bind_of_ok later] at fails
            cases fails
          | error fault =>
            rw [run_bind_of_error later] at fails
            cases fails
            obtain ⟨before, failing, rest, values, between, rfl, succeeds, breaks⟩ := ih later
            refine ⟨line :: before, failing, rest, value :: values, between, rfl, ?_, ?_⟩
            · rw [evaluateLines_cons, run_bind_of_ok first, run_bind_of_ok succeeds]
              rfl
            · rwa [List.length_cons, Nat.add_comm before.length, ← Nat.add_assoc]

/-- Evaluating joined lines evaluates each of them on its own line, in order, up to the first
error.  The value is that of the last line that has one, and an error is that of the line that
fails and carries the number of that line. -/
theorem evaluate_intercalate {lines : List String} (single : ∀ line ∈ lines, '\n' ∉ line.toList)
    (number : Nat) :
    (evaluate scope ("\n".intercalate lines) number = do
      let values ← evaluateLines scope number lines
      return values.reduceOption.getLast?) ∧
    ∀ state error after,
      (evaluate scope ("\n".intercalate lines) number).run.run state = (.error error, after) →
      ∃ before line rest values middle, lines = before ++ line :: rest ∧
        (evaluateLines scope number before).run.run state = (.ok values, middle) ∧
        (evaluate scope line (number + before.length)).run.run middle = (.error error, after) ∧
        error.line? = some (number + before.length) := by
  have joined := evaluate_joined scope single number
  refine ⟨joined, fun state error after fails => ?_⟩
  rw [joined] at fails
  cases runs : (evaluateLines scope number lines).run.run state with
  | mk outcome ending =>
    cases outcome with
    | ok values =>
      rw [run_bind_of_ok runs] at fails
      cases fails
    | error fault =>
      rw [run_bind_of_error runs] at fails
      cases fails
      obtain ⟨before, line, rest, values, middle, rfl, succeeds, breaks⟩ :=
        evaluateLines_error scope runs
      have inLine := single line (List.mem_append_right _ (.head _))
      have located := located_evaluate scope inLine
      exact ⟨before, line, rest, values, middle, rfl, succeeds, breaks,
        located.line_of_error breaks⟩

/-- Of three lines from the fifth on, the last one lacks a value. -/
theorem evaluate_dangling_assignment :
    let lines := ["x = 1", "", "y ="]
    (∀ line ∈ lines, '\n' ∉ line.toList) ∧
      (evaluate idleScope ("\n".intercalate lines) 5 = do
        let values ← evaluateLines idleScope 5 lines
        return values.reduceOption.getLast?) ∧
      (evaluate idleScope ("\n".intercalate lines) 5).run.run () =
        (.error (.parse (.missingValue 7)), ()) ∧
      ∃ before line rest values middle, lines = before ++ line :: rest ∧
        (evaluateLines idleScope 5 before).run.run () = (.ok values, middle) ∧
        (evaluate idleScope line (5 + before.length)).run.run middle =
          (.error (.parse (.missingValue 7)), ()) ∧
        (Error.parse (.missingValue 7)).line? = some (5 + before.length) := by
  intro lines
  have single : ∀ line ∈ lines, '\n' ∉ line.toList := by decide
  have lexed : Lexer.lexemes ("\n".intercalate lines).toList =
      [⟨['x', ' ', '='], some (.assign "x")⟩, ⟨[' '], some (.space " ")⟩,
        ⟨['1'], some (.word "1")⟩, ⟨['\n'], some .newLine⟩, ⟨['\n'], some .newLine⟩,
        ⟨['y', ' ', '='], some (.assign "y")⟩] := by
    decide +kernel
  have fails : (evaluate idleScope ("\n".intercalate lines) 5).run.run () =
      (.error (.parse (.missingValue 7)), ()) := by
    rw [evaluate, lexed]
    rfl
  obtain ⟨equal, located⟩ := evaluate_intercalate idleScope single 5
  exact ⟨single, equal, fails, located () _ () fails⟩

end Colloquy.Evaluation
