import Colloquy.Code.Reducer

/-!
# Recorded effects

A scope that also keeps a log of what is asked of it.  A step on the recorded scope does what it
does on the scope itself, and the log grows by the effects that it runs, in their order.
-/

namespace Colloquy

/-- An effect of a scope, with the name that it was asked for under. -/
inductive Deed where
  | call (operation : String)
  | construct (typeName : String)
  | assign (name : String)
  | importType (typeName : String)
  | declare (declaration : Declaration)
deriving DecidableEq, Repr

/-- The effect that an opening token asks for, which waits for what the token opens. -/
def Token.opening? : Token → Option Deed
  | .call operation => some (.call operation)
  | .new typeName => some (.construct typeName)
  | .assign name => some (.assign name)
  | _ => none

/-- The effect that a statement token asks for, at once. -/
def Token.statement? : Token → Option Deed
  | .importType typeName => some (.importType typeName)
  | .declaration statement => some (.declare statement)
  | _ => none

/-- The effect that a token asks for. -/
def Token.deed? (token : Token) : Option Deed := token.opening?.or token.statement?

variable {σ α β : Type}

/-- A step on a state, logged first. -/
def record (deed : Deed) (step : StateM σ α) : StateM (σ × List Deed) α := fun (state, log) =>
  let (result, after) := step.run state
  (result, (after, log ++ [deed]))

/-- The scope that logs every effect and runs it then. -/
def Scope.recording (scope : Scope σ) : Scope (σ × List Deed) where
  heap state := scope.heap state.1
  lookup state := scope.lookup state.1
  assign name value := record (.assign name) (scope.assign name value)
  importType typeName := record (.importType typeName) (scope.importType typeName).run
  declare declaration := record (.declare declaration) (scope.declare declaration).run
  construct typeName args := record (.construct typeName) (scope.construct typeName args).run
  call operation receiver args := record (.call operation) (scope.call operation receiver args).run

@[simp]
theorem Scope.lookup_recording (scope : Scope σ) (state : σ) (log : List Deed) :
    scope.recording.lookup (state, log) = scope.lookup state :=
  rfl

@[simp]
theorem Scope.heap_recording (scope : Scope σ) (state : σ) (log : List Deed) :
    scope.recording.heap (state, log) = scope.heap state :=
  rfl

namespace Reducer

/-- The second step does what the first one does, and logs effects besides.  If there is a result,
then it and the logged effects are related. -/
def Logs (plain : Step σ α) (recorded : Step (σ × List Deed) α)
    (related : α → List Deed → Prop) : Prop :=
  ∀ state log, ∃ added,
    recorded.run.run (state, log) =
        ((plain.run.run state).1, ((plain.run.run state).2, log ++ added)) ∧
      ∀ result, (plain.run.run state).1 = .ok result → related result added

section Rules

variable {plain : Step σ α} {recorded : Step (σ × List Deed) α} {related : α → List Deed → Prop}

theorem Logs.mono (logs : Logs plain recorded related) {weaker : α → List Deed → Prop}
    (implies : ∀ result added, related result added → weaker result added) :
    Logs plain recorded weaker := by
  intro state log
  obtain ⟨added, same, holds⟩ := logs state log
  exact ⟨added, same, fun result success => implies _ _ (holds result success)⟩

theorem Logs.bind (logs : Logs plain recorded related) {next : α → Step σ β}
    {recordedNext : α → Step (σ × List Deed) β} {wanted : β → List Deed → Prop}
    (rest : ∀ value added, related value added →
      Logs (next value) (recordedNext value) fun result later => wanted result (added ++ later)) :
    Logs (plain >>= next) (recorded >>= recordedNext) wanted := by
  intro state log
  obtain ⟨added, same, holds⟩ := logs state log
  rw [ExceptT.run_bind, StateT.run_bind, ExceptT.run_bind, StateT.run_bind, same]
  cases outcome : plain.run.run state with
  | mk first middle =>
    cases first with
    | error error => exact ⟨added, rfl, fun result success => by cases success⟩
    | ok value =>
      rw [outcome] at holds
      obtain ⟨later, sameNext, holdsNext⟩ :=
        rest value added (holds value rfl) middle (log ++ added)
      refine ⟨added ++ later, ?_, holdsNext⟩
      rw [← List.append_assoc]
      exact sameNext

theorem logs_pure {result : α} (holds : related result []) :
    Logs (pure result : Step σ α) (pure result) related := by
  intro state log
  refine ⟨[], ?_, ?_⟩
  · rw [List.append_nil]
    rfl
  · intro other success
    cases success
    exact holds

theorem logs_throw (error : Error) : Logs (throw error : Step σ α) (throw error) related := by
  intro state log
  refine ⟨[], ?_, ?_⟩
  · rw [List.append_nil]
    rfl
  · intro other success
    cases success

theorem logs_lift {outcome : Except Error α}
    (holds : ∀ result, outcome = .ok result → related result []) :
    Logs (liftM outcome : Step σ α) (liftM outcome) related := by
  cases outcome with
  | error error => exact logs_throw error
  | ok result => exact logs_pure (holds result rfl)

theorem logs_lift_bind {outcome : Except Error β} {next : β → Step σ α}
    {recordedNext : β → Step (σ × List Deed) α}
    (rest : ∀ value, outcome = .ok value → Logs (next value) (recordedNext value) related) :
    Logs (liftM outcome >>= next) (liftM outcome >>= recordedNext) related := by
  have lifted : Logs (liftM outcome : Step σ β) (liftM outcome)
      fun value added => outcome = .ok value ∧ added = [] :=
    logs_lift fun value success => ⟨success, rfl⟩
  refine lifted.bind ?_
  rintro value added ⟨success, rfl⟩
  exact rest value success

/-- A step that reads the state runs on what it reads, and the log is not part of that. -/
theorem logs_get {next : σ → Step σ α} {recordedNext : σ × List Deed → Step (σ × List Deed) α}
    (rest : ∀ state log, Logs (next state) (recordedNext (state, log)) related) :
    Logs (get >>= next) (get >>= recordedNext) related :=
  fun state log => rest state log state log

/-- An effect is logged, and nothing else is. -/
theorem logs_onLine (line : Nat) (deed : Deed) (effect : Effect σ α) :
    Logs (onLine line effect) (onLine line (record deed effect.run))
      fun _ added => added = [deed] :=
  fun _ _ => ⟨[deed], rfl, fun _ _ => rfl⟩

theorem logs_assign (scope : Scope σ) (name : String) (value : Value) :
    Logs (scope.assign name value : Step σ Unit) (scope.recording.assign name value)
      fun _ added => added = [.assign name] :=
  fun _ _ => ⟨[.assign name], rfl, fun _ _ => rfl⟩

end Rules

end Reducer

end Colloquy
