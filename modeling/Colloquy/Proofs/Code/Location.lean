import Colloquy.Code.Evaluation

/-!
# Where errors are located

A step of the reduction does the same on every line, and its errors carry the line that it runs on.
Code that stands further down therefore fails with the same errors, further down.
-/

namespace Colloquy

namespace ParseError

/-- The line that an error was found on. -/
def line : ParseError → Nat
  | unexpectedToken _ line | unknownBlock _ line | unterminatedBlock _ line => line
  | missingFileName line | missingValue line | emptyArgument line => line

/-- The error on another line. -/
def mapLine (change : Nat → Nat) : ParseError → ParseError
  | unexpectedToken token line => unexpectedToken token (change line)
  | unknownBlock id line => unknownBlock id (change line)
  | unterminatedBlock id line => unterminatedBlock id (change line)
  | missingFileName line => missingFileName (change line)
  | missingValue line => missingValue (change line)
  | emptyArgument line => emptyArgument (change line)

@[simp]
theorem line_mapLine (change : Nat → Nat) (error : ParseError) :
    (error.mapLine change).line = change error.line := by
  cases error <;> rfl

theorem mapLine_mapLine (first second : Nat → Nat) (error : ParseError) :
    (error.mapLine first).mapLine second = error.mapLine (second ∘ first) := by
  cases error <;> rfl

end ParseError

namespace Error

/-- The line that an error was found on, if it is about a line. -/
def line? : Error → Option Nat
  | parse error => some error.line
  | runtime line _ => some line
  | library _ | unreadable _ _ => none

/-- The error on another line, if it is about a line. -/
def mapLine (change : Nat → Nat) : Error → Error
  | parse error => parse (error.mapLine change)
  | runtime line error => runtime (change line) error
  | library error => library error
  | unreadable path reason => unreadable path reason

/-- The error a number of lines further down. -/
def lowered (count : Nat) : Error → Error := mapLine (· + count)

@[simp]
theorem line?_mapLine (change : Nat → Nat) (error : Error) :
    (error.mapLine change).line? = error.line?.map change := by
  cases error <;> simp [mapLine, line?]

theorem mapLine_mapLine (first second : Nat → Nat) (error : Error) :
    (error.mapLine first).mapLine second = error.mapLine (second ∘ first) := by
  cases error <;> simp [mapLine, ParseError.mapLine_mapLine]

end Error

namespace Reducer

variable {σ α β : Type}

theorem run_bind_of_ok {first : Step σ α} {next : α → Step σ β} {state middle : σ} {value : α}
    (succeeds : first.run.run state = (.ok value, middle)) :
    (first >>= next).run.run state = (next value).run.run middle := by
  rw [ExceptT.run_bind, StateT.run_bind, succeeds]
  rfl

theorem run_bind_of_error {first : Step σ α} {next : α → Step σ β} {state after : σ}
    {error : Error} (fails : first.run.run state = (.error error, after)) :
    (first >>= next).run.run state = (.error error, after) := by
  rw [ExceptT.run_bind, StateT.run_bind, fails]
  rfl

/-- An outcome that is the same on every line, but for the line of its error. -/
inductive OnEachLine : (Nat → Except Error α) → Prop
  | ok (value : α) : OnEachLine fun _ => .ok value
  | error {error : Error} (located : error.line?.isSome) :
    OnEachLine fun line => .error (error.mapLine fun _ => line)

/-- A step that is the same on every line, but for the line of its error. -/
def Located (step : Nat → Step σ α) : Prop :=
  ∀ state, ∃ outcome after, OnEachLine outcome ∧
    ∀ line, (step line).run.run state = (outcome line, after)

section Rules

theorem located_pure (value : α) : Located fun _ => (pure value : Step σ α) :=
  fun state => ⟨_, state, .ok value, fun _ => rfl⟩

theorem located_lift {outcome : Nat → Except Error α} (same : OnEachLine outcome) :
    Located fun line => (liftM (outcome line) : Step σ α) := by
  intro state
  refine ⟨outcome, state, same, fun line => ?_⟩
  dsimp only
  cases outcome line <;> rfl

theorem Located.bind {step : Nat → Step σ α} {next : Nat → α → Step σ β} (first : Located step)
    (later : ∀ value, Located fun line => next line value) :
    Located fun line => step line >>= next line := by
  intro state
  obtain ⟨outcome, middle, same, runs⟩ := first state
  cases same with
  | ok value =>
    obtain ⟨outcome, after, same, runsNext⟩ := later value middle
    exact ⟨outcome, after, same, fun line => (run_bind_of_ok (runs line)).trans (runsNext line)⟩
  | error located =>
    exact ⟨_, middle, .error located, fun line => run_bind_of_error (runs line)⟩

theorem located_get {next : Nat → σ → Step σ α}
    (later : ∀ state, Located fun line => next line state) :
    Located fun line => (get >>= next line : Step σ α) :=
  fun state => later state state

/-- An effect that cannot fail is the same on every line. -/
theorem located_quiet (effect : StateM σ α) : Located fun _ => (liftM effect : Step σ α) :=
  fun state => ⟨_, (effect.run state).2, .ok (effect.run state).1, fun _ => rfl⟩

/-- An effect of the scope fails on the line that it is run on. -/
theorem located_onLine (effect : Effect σ α) : Located fun line => onLine line effect := by
  intro state
  cases runs : effect.run.run state with
  | mk outcome after =>
    cases outcome with
    | ok value =>
      refine ⟨_, after, .ok value, fun line => ?_⟩
      change (Except.mapError _ <$> effect.run).run state = _
      rw [StateT.run_map, runs]
      rfl
    | error error =>
      have located : (Error.runtime 0 error).line?.isSome := rfl
      refine ⟨_, after, .error located, fun line => ?_⟩
      change (Except.mapError _ <$> effect.run).run state = _
      rw [StateT.run_map, runs]
      rfl

theorem onEachLine_parse {cause : Nat → ParseError}
    (moves : ∀ line, cause line = (cause 0).mapLine fun _ => line) :
    OnEachLine fun line => (.error (.parse (cause line)) : Except Error α) := by
  have same : (fun line => (.error (.parse (cause line)) : Except Error α)) =
      fun line => .error ((Error.parse (cause 0)).mapLine fun _ => line) := by
    funext line
    rw [moves line]
    rfl
  rw [same]
  exact .error rfl

theorem located_parse {cause : Nat → ParseError}
    (moves : ∀ line, cause line = (cause 0).mapLine fun _ => line) :
    Located fun line => (throw (.parse (cause line)) : Step σ α) :=
  located_lift (onEachLine_parse moves)

theorem onEachLine_runtime (error : RuntimeError) :
    OnEachLine fun line => (.error (.runtime line error) : Except Error α) := by
  have located : (Error.runtime 0 error).line?.isSome := rfl
  exact .error located

theorem OnEachLine.bind {outcome : Nat → Except Error α} {next : Nat → α → Except Error β}
    (first : OnEachLine outcome) (later : ∀ value, OnEachLine fun line => next line value) :
    OnEachLine fun line => outcome line >>= next line := by
  cases first with
  | ok value => exact later value
  | error located => exact .error located

end Rules

section Steps

variable (scope : Scope σ) (stack : Stack)

theorem onEachLine_fold (heap : Heap) (right : Value) :
    OnEachLine fun line => fold heap line right stack := by
  induction stack generalizing right with
  | nil => exact .ok _
  | cons frame rest ih =>
    cases frame with
    | addition left =>
      simp only [fold]
      cases left.add heap right with
      | ok sum => exact ih sum
      | error error => exact onEachLine_runtime error
    | literal | computed | call | construction | assignment => exact .ok _

theorem onEachLine_pushText (text : String) : OnEachLine fun line => pushText line text stack := by
  unfold pushText
  split
  · exact .ok _
  · exact onEachLine_parse fun _ => rfl
  · exact .ok _

theorem onEachLine_expectNoOperand (token : String) :
    OnEachLine fun line => expectNoOperand token line stack := by
  unfold expectNoOperand
  split
  · split
    · exact .ok _
    · exact onEachLine_parse fun _ => rfl
  · exact onEachLine_parse fun _ => rfl
  · exact .ok _

theorem onEachLine_expectIdle (token : String) :
    OnEachLine fun line => expectIdle token line stack := by
  refine (onEachLine_expectNoOperand stack token).bind fun rest => ?_
  split
  · exact .ok _
  · exact onEachLine_parse fun _ => rfl

theorem located_finishOperand : Located fun line => finishOperand scope line stack := by
  refine located_get fun state => ?_
  split
  · exact (located_lift (onEachLine_fold _ _ _)).bind fun _ => located_pure _
  · split
    · exact located_parse fun _ => rfl
    · exact located_pure _

theorem located_invoke (frame : Frame) : Located fun line => invoke scope line frame := by
  cases frame with
  | call operation receiver args => exact located_onLine _
  | construction typeName args => exact located_onLine _
  | literal | computed | assignment | addition => exact located_parse fun _ => rfl

theorem located_plus : Located fun line => plus scope line stack := by
  refine located_get fun state => ?_
  split
  · exact (located_lift (onEachLine_fold _ _ _)).bind fun _ => located_pure _
  · exact located_lift (onEachLine_pushText _ _)

theorem located_comma : Located fun line => comma scope line stack := by
  unfold comma
  split
  · refine (located_finishOperand scope stack).bind fun result => ?_
    split
    · exact located_pure _
    · exact located_pure _
    · exact located_parse fun _ => rfl
  · exact located_lift (onEachLine_pushText _ _)

theorem located_close : Located fun line => close scope line stack := by
  unfold close
  split
  · refine (located_finishOperand scope stack).bind fun result => ?_
    split
    · exact (located_invoke scope _).bind fun _ => located_pure _
    · split
      · exact (located_invoke scope _).bind fun _ => located_pure _
      · exact located_parse fun _ => rfl
    · exact located_pure _
  · exact located_lift (onEachLine_pushText _ _)

theorem located_settle (operand : Option Value) :
    Located fun line => settle scope line operand stack := by
  induction stack generalizing operand with
  | nil => exact located_pure _
  | cons frame rest ih =>
    have invoked (waiting : Frame) : Located fun line =>
        (invoke scope line waiting >>= fun value => settle scope line (some value) rest) :=
      (located_invoke scope waiting).bind fun value => ih (some value)
    cases frame with
    | addition left =>
      cases operand with
      | none => exact located_parse fun _ => rfl
      | some right =>
        refine located_get fun state => ?_
        cases left.add (scope.heap state) right with
        | ok sum => exact ih (some sum)
        | error error => exact located_lift (onEachLine_runtime error)
    | assignment name =>
      cases operand with
      | none => exact located_parse fun _ => rfl
      | some value => exact (located_quiet _).bind fun _ => ih (some value)
    | call operation receiver args => exact invoked _
    | construction typeName args => exact invoked _
    | literal text => exact invoked _
    | computed value => exact invoked _

theorem located_closeLine : Located fun line => closeLine scope line stack :=
  located_get fun _ => located_settle scope _ _

theorem located_shift (token : Token) : Located fun line => shift scope line token stack := by
  have texts (text : String) : Located fun line =>
      (liftM (pushText line text stack) : Step σ Stack) :=
    located_lift (onEachLine_pushText stack text)
  cases token with
  | word text => exact texts text
  | char text => exact texts text
  | quoted text => exact texts text
  | space text => exact located_pure _
  | plus => exact located_plus scope stack
  | comma => exact located_comma scope stack
  | close => exact located_close scope stack
  | assign name =>
    exact (located_lift (onEachLine_expectNoOperand stack _)).bind fun _ => located_pure _
  | new typeName =>
    exact (located_lift (onEachLine_expectNoOperand stack _)).bind fun _ => located_pure _
  | call operation =>
    refine located_get fun state => ?_
    split
    · exact located_pure _
    · exact located_parse fun _ => rfl
  | importType typeName =>
    refine (located_lift (onEachLine_expectIdle stack _)).bind fun rest => ?_
    exact (located_onLine _).bind fun _ => located_pure _
  | declaration declaration =>
    refine (located_lift (onEachLine_expectIdle stack _)).bind fun rest => ?_
    exact (located_onLine _).bind fun _ => located_pure _
  | newLine => exact (located_closeLine scope stack).bind fun _ => located_pure _

end Steps

theorem run_adapt (change : Error → Error) (step : Step σ α) (state : σ) :
    (step.adapt change).run.run state =
      ((step.run.run state).1.mapError change, (step.run.run state).2) :=
  rfl

theorem adapt_pure (change : Error → Error) (value : α) :
    (pure value : Step σ α).adapt change = pure value :=
  rfl

theorem adapt_bind (change : Error → Error) (first : Step σ α) (next : α → Step σ β) :
    (first >>= next).adapt change =
      first.adapt change >>= fun value => (next value).adapt change := by
  apply ExceptT.ext
  apply StateT.ext
  intro state
  rw [run_adapt]
  cases runs : first.run.run state with
  | mk outcome middle =>
    have adapted : (first.adapt change).run.run state = (outcome.mapError change, middle) := by
      rw [run_adapt, runs]
    cases outcome with
    | ok value =>
      rw [run_bind_of_ok runs, run_bind_of_ok adapted]
      rfl
    | error error =>
      rw [run_bind_of_error runs, run_bind_of_error adapted]
      rfl

variable {step : Nat → Step σ α}

/-- An error of a step is on the line that the step runs on. -/
theorem Located.line_of_error (located : Located step) {line : Nat} {state after : σ}
    {error : Error} (fails : (step line).run.run state = (.error error, after)) :
    error.line? = some line := by
  obtain ⟨outcome, _, same, runs⟩ := located state
  have failed : outcome line = .error error := congrArg Prod.fst ((runs line).symm.trans fails)
  cases same with
  | ok value => cases failed
  | error located =>
    cases failed
    rw [Error.line?_mapLine]
    obtain ⟨found, known⟩ := Option.isSome_iff_exists.1 located
    rw [known]
    rfl

/-- Further down a step does the same, with its errors further down. -/
theorem Located.lowered (located : Located step) (line count : Nat) :
    step (line + count) = (step line).adapt (Error.lowered count) := by
  apply ExceptT.ext
  apply StateT.ext
  intro state
  obtain ⟨outcome, after, same, runs⟩ := located state
  have moved (error : Error) :
      (error.mapLine fun _ => line).lowered count = error.mapLine fun _ => line + count :=
    Error.mapLine_mapLine _ _ error
  rw [run_adapt, runs, runs]
  cases same with
  | ok value => rfl
  | error located =>
    exact congrArg (fun error => (Except.error error, after)) (moved _).symm

end Reducer

namespace Evaluation

open Reducer

variable {σ : Type} (scope : Scope σ)

theorem located_run (stack : Stack) (last : Option Value) {lexemes : List Lexeme}
    (inLine : ∀ lexeme ∈ lexemes, lexeme.token? ≠ some .newLine) :
    Located fun line => run scope line stack last lexemes := by
  induction lexemes generalizing stack with
  | nil => exact (located_closeLine scope stack).bind fun _ => located_pure _
  | cons lexeme rest ih =>
    have later (stack : Stack) := ih stack fun lexeme member => inLine lexeme (.tail _ member)
    have here := inLine lexeme (.head _)
    unfold run
    split
    · exact located_parse fun _ => rfl
    · rename_i ends
      exact absurd ends here
    · exact (located_shift scope stack _).bind later

theorem run_lowered (line count : Nat) (stack : Stack) (last : Option Value)
    (lexemes : List Lexeme) :
    run scope (line + count) stack last lexemes =
      (run scope line stack last lexemes).adapt (Error.lowered count) := by
  induction lexemes generalizing line stack last with
  | nil =>
    simp only [run, (located_closeLine scope stack).lowered line count, adapt_bind, adapt_pure]
  | cons lexeme rest ih =>
    unfold run
    split
    · rfl
    · simp only [(located_closeLine scope stack).lowered line count, adapt_bind, ← ih,
        Nat.add_right_comm line count 1]
    · rename_i token _ _
      simp only [(located_shift scope stack token).lowered line count, adapt_bind, ih]

/-- Code further down does the same, with its errors further down. -/
theorem evaluate_lowered (source : String) (line count : Nat) :
    evaluate scope source (line + count) =
      (evaluate scope source line).adapt (Error.lowered count) :=
  run_lowered scope line count [] none _

end Evaluation
end Colloquy
