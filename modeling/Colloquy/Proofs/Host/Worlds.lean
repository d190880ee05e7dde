import Colloquy.Proofs.Host.Soundness

/-!
# Steps between sound states

What a step promises that may fail after some effects: from a sound state it leads to a sound state,
objects stay in states of their classes whether it fails or not, and its result is a good one.  Such
promises are chained along the binds of a step.
-/

namespace Colloquy

variable {σ α β ε ε' : Type}

/-- The outcome is a good result, or an error that is to be expected. -/
def Ends (good : α → Prop) (expected : ε → Prop) : Except ε α → Prop
  | .ok result => good result
  | .error error => expected error

theorem Ends.mono {good better : α → Prop} {expected wider : ε → Prop} {outcome : Except ε α}
    (ends : Ends good expected outcome) (results : ∀ result, good result → better result)
    (errors : ∀ error, expected error → wider error) : Ends better wider outcome := by
  cases outcome with
  | ok result => exact results result ends
  | error error => exact errors error ends

/-- States with a heap, and those of them that are sound. -/
structure World (σ : Type) where
  /-- The heap of a state. -/
  heap : σ → Heap
  /-- The state is sound. -/
  Sound : σ → Prop

namespace World

variable (world : World σ)

/-- The state is sound, and objects of the earlier state are still in states of their classes. -/
structure Leads (before after : σ) : Prop where
  sound : world.Sound after
  keeps : (world.heap before).Keeps (world.heap after)

/-- From a state, if it is sound, the step leads to a sound one, with a good result or an expected
error. -/
def Ensures (step : ExceptT ε (StateM σ) α) (state : σ) (good : σ → α → Prop)
    (expected : ε → Prop) : Prop :=
  world.Sound state →
    world.Leads state (step.run.run state).2 ∧
      Ends (good (step.run.run state).2) expected (step.run.run state).1

variable {world} {state : σ} {good : σ → α → Prop} {expected : ε → Prop}

theorem Leads.trans {before middle after : σ} (first : world.Leads before middle)
    (second : world.Leads middle after) : world.Leads before after :=
  ⟨second.sound, first.keeps.trans second.keeps⟩

/-- What a step promises may use that the state before it is sound. -/
theorem ensures_of_sound {step : ExceptT ε (StateM σ) α}
    (ensures : world.Sound state → world.Ensures step state good expected) :
    world.Ensures step state good expected :=
  fun sound => ensures sound sound

theorem Ensures.mono {step : ExceptT ε (StateM σ) α} {better : σ → α → Prop} {wider : ε → Prop}
    (ensures : world.Ensures step state good expected)
    (results : ∀ after result, good after result → better after result)
    (errors : ∀ error, expected error → wider error) :
    world.Ensures step state better wider := by
  intro sound
  obtain ⟨leads, ends⟩ := ensures sound
  exact ⟨leads, ends.mono (results _) errors⟩

theorem ensures_pure {result : α} (holds : good state result) :
    world.Ensures (pure result) state good expected :=
  fun sound => ⟨⟨sound, .refl _⟩, holds⟩

theorem ensures_throw {error : ε} (holds : expected error) :
    world.Ensures (throw error : ExceptT ε (StateM σ) α) state good expected :=
  fun sound => ⟨⟨sound, .refl _⟩, holds⟩

/-- A step that only depends on an outcome. -/
theorem ensures_lift {outcome : Except ε α} (ends : Ends (good state) expected outcome) :
    world.Ensures (liftM outcome : ExceptT ε (StateM σ) α) state good expected := by
  cases outcome with
  | ok result => exact ensures_pure ends
  | error error => exact ensures_throw ends

theorem Ensures.bind {step : ExceptT ε (StateM σ) α} {next : α → ExceptT ε (StateM σ) β}
    {better : σ → β → Prop} (first : world.Ensures step state good expected)
    (rest : ∀ after result, world.Leads state after → good after result →
      world.Ensures (next result) after better expected) :
    world.Ensures (step >>= next) state better expected := by
  intro sound
  obtain ⟨leads, ends⟩ := first sound
  rw [ExceptT.run_bind, StateT.run_bind]
  cases outcome : step.run.run state with
  | mk result after =>
    rw [outcome] at leads ends
    cases result with
    | error error => exact ⟨leads, ends⟩
    | ok result =>
      obtain ⟨later, ending⟩ := rest after result leads ends leads.sound
      exact ⟨leads.trans later, ending⟩

theorem ensures_get {next : σ → ExceptT ε (StateM σ) α}
    (rest : world.Ensures (next state) state good expected) :
    world.Ensures (get >>= next) state good expected :=
  rest

/-- The state is changed to another sound one. -/
theorem ensures_modify {change : σ → σ} {good : σ → PUnit → Prop}
    (leads : world.Sound state → world.Leads state (change state))
    (holds : good (change state) ⟨⟩) :
    world.Ensures (modify change : ExceptT ε (StateM σ) PUnit) state good expected :=
  fun sound => ⟨leads sound, holds⟩

/-- A step that does not fail. -/
theorem ensures_liftState {step : StateM σ α}
    (leads : world.Sound state → world.Leads state (step.run state).2)
    (holds : good (step.run state).2 (step.run state).1) :
    world.Ensures (liftM step : ExceptT ε (StateM σ) α) state good expected :=
  fun sound => ⟨leads sound, holds⟩

/-- A step may be refused before it is taken. -/
theorem ensures_unless {condition : Prop} [Decidable condition] {error : ε}
    {next : PUnit → ExceptT ε (StateM σ) α} (refused : condition → expected error)
    (rest : ¬condition → world.Ensures (next ⟨⟩) state good expected) :
    world.Ensures (if condition then throw error >>= next else next ⟨⟩) state good expected := by
  by_cases holds : condition
  · rw [if_pos holds]
    exact fun sound => ⟨⟨sound, .refl _⟩, refused holds⟩
  · rw [if_neg holds]
    exact rest holds

/-- A change of the errors changes which of them are expected. -/
theorem Ensures.adapt {step : ExceptT ε (StateM σ) α} {change : ε → ε'} {expected : ε' → Prop}
    (ensures : world.Ensures step state good fun error => expected (change error)) :
    world.Ensures (step.adapt change) state good expected := by
  intro sound
  obtain ⟨leads, ends⟩ := ensures sound
  have run : (step.adapt change).run.run state =
      ((step.run.run state).1.mapError change, (step.run.run state).2) := rfl
  rw [run]
  cases outcome : step.run.run state with
  | mk result after =>
    rw [outcome] at leads ends
    cases result <;> exact ⟨leads, ends⟩

end World

/-- The step leaves the state as it is, with a good result or an expected error. -/
def Finds (step : ExceptT ε (StateM σ) α) (state : σ) (good : α → Prop) (expected : ε → Prop) :
    Prop :=
  ∃ outcome, step.run.run state = (outcome, state) ∧ Ends good expected outcome

section Finds

variable {state : σ} {good : α → Prop} {expected : ε → Prop}

theorem finds_pure {result : α} (holds : good result) :
    Finds (pure result : ExceptT ε (StateM σ) α) state good expected :=
  ⟨.ok result, rfl, holds⟩

theorem finds_throw {error : ε} (holds : expected error) :
    Finds (throw error : ExceptT ε (StateM σ) α) state good expected :=
  ⟨.error error, rfl, holds⟩

/-- A step that only depends on an outcome. -/
theorem finds_lift {outcome : Except ε α} (ends : Ends good expected outcome) :
    Finds (liftM outcome : ExceptT ε (StateM σ) α) state good expected := by
  cases outcome with
  | ok result => exact finds_pure ends
  | error error => exact finds_throw ends

theorem finds_get {next : σ → ExceptT ε (StateM σ) α}
    (rest : Finds (next state) state good expected) :
    Finds (get >>= next) state good expected :=
  rest

theorem Finds.bind {step : ExceptT ε (StateM σ) α} {next : α → ExceptT ε (StateM σ) β}
    {better : β → Prop} (first : Finds step state good expected)
    (rest : ∀ result, good result → Finds (next result) state better expected) :
    Finds (step >>= next) state better expected := by
  obtain ⟨outcome, runs, ends⟩ := first
  cases outcome with
  | error error =>
    refine ⟨.error error, ?_, ends⟩
    rw [ExceptT.run_bind, StateT.run_bind, runs]
    rfl
  | ok result =>
    obtain ⟨ending, later, holds⟩ := rest result ends
    refine ⟨ending, ?_, holds⟩
    rw [ExceptT.run_bind, StateT.run_bind, runs]
    exact later

/-- A step that only reads may stand before any other step. -/
theorem Finds.then {world : World σ} {step : ExceptT ε (StateM σ) α}
    {next : α → ExceptT ε (StateM σ) β} {better : σ → β → Prop}
    (first : Finds step state good expected)
    (rest : ∀ result, good result → world.Ensures (next result) state better expected) :
    world.Ensures (step >>= next) state better expected := by
  obtain ⟨outcome, runs, ends⟩ := first
  intro sound
  rw [ExceptT.run_bind, StateT.run_bind, runs]
  cases outcome with
  | error error => exact ⟨⟨sound, .refl _⟩, ends⟩
  | ok result => exact rest result ends sound

theorem Finds.ensures {world : World σ} {step : ExceptT ε (StateM σ) α} {better : σ → α → Prop}
    (finds : Finds step state good expected)
    (results : ∀ result, good result → better state result) :
    world.Ensures step state better expected := by
  obtain ⟨outcome, runs, ends⟩ := finds
  intro sound
  rw [runs]
  exact ⟨⟨sound, .refl _⟩, ends.mono results fun _ holds => holds⟩

/-- A step may be refused before it is taken. -/
theorem Finds.unless {condition : Prop} [Decidable condition] {error : ε}
    {next : PUnit → ExceptT ε (StateM σ) α} (refused : condition → expected error)
    (rest : ¬condition → Finds (next ⟨⟩) state good expected) :
    Finds (if condition then throw error >>= next else next ⟨⟩) state good expected := by
  by_cases holds : condition
  · rw [if_pos holds]
    exact ⟨.error error, rfl, refused holds⟩
  · rw [if_neg holds]
    exact rest holds

/-- The good results of a list of steps that only read. -/
theorem finds_mapM {step : α → ExceptT ε (StateM σ) β} {items : List α} {better : β → Prop}
    (each : ∀ item ∈ items, Finds (step item) state better expected) :
    Finds (items.mapM step) state (fun results => ∀ result ∈ results, better result) expected := by
  induction items with
  | nil => exact finds_pure (List.forall_mem_nil _)
  | cons item items ih =>
    obtain ⟨here, others⟩ := List.forall_mem_cons.1 each
    rw [List.mapM_cons]
    refine here.bind fun result holds => (ih others).bind fun results hold => ?_
    exact finds_pure (List.forall_mem_cons.2 ⟨holds, hold⟩)

end Finds

end Colloquy
