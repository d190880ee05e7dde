import Colloquy.Proofs.Code.Soundness
import Colloquy.Proofs.Registry.Safety
import Colloquy.Session

/-!
# Sound sessions

A session is sound if its heap and its bindings are, and its registry only served requests.
Whatever code asks of a session over safe members leads to sound sessions.
-/

namespace Colloquy

/-- What holds of the values of a table and of a further value holds after that is put there. -/
theorem Table.forall_put {Key Entry : Type} [DecidableEq Key] {table : Table Key Entry}
    {holds : Entry → Prop} (each : ∀ key, ∀ entry ∈ table.get? key, holds entry) {key : Key}
    {entry : Entry} (fresh : holds entry) :
    ∀ other, ∀ found ∈ (put key entry table).get? other, holds found := by
  intro other found known
  by_cases same : other = key
  · subst same
    rw [get?_put_self] at known
    cases known
    exact fresh
  · rw [get?_put_of_ne same] at known
    exact each other found known

namespace Session

open Registry (fresh Request Guarded)

variable {catalog : Catalog} {packages : List String} {alphabet : Alphabet} {session : Session}

/-- The values of the session are sound, and its registry served requests. -/
structure Sound (catalog : Catalog) (packages : List String) (alphabet : Alphabet)
    (session : Session) : Prop where
  heap : session.heap.Sound alphabet
  bound : ∀ name, ∀ value ∈ session.bindings.get? name, value.Sound alphabet session.heap
  served : ∃ order requests, session.registry = (fresh catalog packages order).serve requests

/-- The sessions with a catalog. -/
def world (catalog : Catalog) (packages : List String) (alphabet : Alphabet) : World Session where
  heap := Session.heap
  Sound := Sound catalog packages alphabet

theorem Sound.serving (sound : session.Sound catalog packages alphabet) (request : Request) :
    ∃ order requests, session.registry.apply request.action =
      (fresh catalog packages order).serve requests := by
  obtain ⟨order, requests, same⟩ := sound.served
  exact ⟨order, requests ++ [request], by rw [Registry.serve_concat, same]⟩

theorem onRegistry_run {α : Type} (attempt : Registry.Attempt α) (session : Session) :
    (onRegistry attempt).run.run session =
      ((attempt.run.run session.registry).1,
        { session with registry := (attempt.run.run session.registry).2 }) := by
  change (liftM (attempt.run.run session.registry).1 : Effect Session α).run.run
    { session with registry := (attempt.run.run session.registry).2 } = _
  cases (attempt.run.run session.registry).1 <;> rfl

/-- What a registry is asked for leads to a sound session, whether it fails or not. -/
theorem ensures_onRegistry {α : Type} {attempt : Registry.Attempt α} (request : Request)
    (serves : ∀ registry : Registry,
      (attempt.run.run registry).2 = registry.apply request.action) :
    (world catalog packages alphabet).Ensures (onRegistry attempt) session (fun _ _ => True)
      fun _ => True := by
  intro sound
  rw [onRegistry_run, serves]
  refine ⟨⟨⟨sound.heap, sound.bound, sound.serving request⟩, .refl _⟩, ?_⟩
  cases (attempt.run.run session.registry).1 <;> trivial

theorem ensures_declare (declaration : Declaration) :
    (world catalog packages alphabet).Ensures (declare declaration) session (fun _ _ => True)
      fun _ => True := by
  obtain ⟨kind, typeName, operation, params, narrowed⟩ := declaration
  have registered {kind : HandleKind} {operation : Option String} (request : Request)
      (asks : request.action = .register kind typeName operation params narrowed) :
      (world catalog packages alphabet).Ensures
        (do let _ ← onRegistry (Registry.register kind typeName operation params narrowed))
        session (fun _ _ => True) fun _ => True :=
    (ensures_onRegistry request fun _ => by rw [asks]; rfl).bind fun _ _ _ _ =>
      World.ensures_pure trivial
  cases operation with
  | none => cases kind <;> exact registered (.registerConstructor typeName params narrowed) rfl
  | some operation =>
    cases kind with
    | constructor => exact registered (.registerConstructor typeName params narrowed) rfl
    | static => exact registered (.registerStatic typeName operation params narrowed) rfl
    | virtual => exact registered (.registerVirtual typeName operation params narrowed) rfl

theorem invoke_run (admits : HandleKind → Bool) (typeName : String) (operation : Option String)
    (args : List Value) (session : Session) :
    let called := session.registry.invoke session.heap admits typeName operation args
    (invoke admits typeName operation args).run.run session =
      (called.1.1, { session with registry := called.2, heap := called.1.2 }) := by
  intro called
  change (liftM called.1.1 : Effect Session Value).run.run
    { session with registry := called.2, heap := called.1.2 } = _
  cases called.1.1 <;> rfl

/-- A call over safe members leads to a sound session and returns a sound value. -/
theorem ensures_invoke (guarded : catalog.Guarded) {args : List Value}
    (argsSound : ∀ arg ∈ args, arg.Sound alphabet session.heap) (admits : HandleKind → Bool)
    (typeName : String) (operation : Option String) :
    (world catalog packages alphabet).Ensures (invoke admits typeName operation args) session
      (fun after result => result.Sound alphabet after.heap) fun _ => True := by
  intro sound
  have runs := invoke_run admits typeName operation args session
  have same := session.registry.invoke_eq_resolveType session.heap admits typeName operation args
  obtain ⟨order, requests, serves⟩ := sound.serving (.resolveType typeName)
  have served := same.trans serves
  have after := Registry.guarded_serve guarded packages order requests
  rw [← served] at after
  obtain ⟨leads, resultSound⟩ := Registry.yields_invoke after sound.heap argsSound
  dsimp only at runs
  rw [runs]
  refine ⟨⟨⟨leads.sound, fun name value member => ?_, order, requests, served⟩, leads.keeps⟩, ?_⟩
  · exact (sound.bound name value member).later leads.keeps
  · cases outcome : (session.registry.invoke session.heap admits typeName operation args).1.1 with
    | error error => trivial
    | ok result => exact resultSound result (by rw [outcome]; rfl)

/-- An effect whose errors are results never fails. -/
theorem ensures_outcome {α : Type} {effect : Effect Session α} {good : Session → α → Prop}
    {expected wider : RuntimeError → Prop}
    (ensures : (world catalog packages alphabet).Ensures effect session good expected) :
    (world catalog packages alphabet).Ensures (outcome effect) session
      (fun after result => Ends (good after) expected result) wider :=
  ensures

theorem ensures_call (guarded : catalog.Guarded) {receiver : Value} {args : List Value}
    (receiverSound : receiver.Sound alphabet session.heap)
    (argsSound : ∀ arg ∈ args, arg.Sound alphabet session.heap) (operation : String) :
    (world catalog packages alphabet).Ensures (call operation receiver args) session
      (fun after result => result.Sound alphabet after.heap) fun _ => True := by
  have given := List.forall_mem_cons.2 ⟨receiverSound, argsSound⟩
  refine (ensures_outcome (ensures_invoke guarded given Registry.virtualOnly _ _)).bind
    fun middle result leads ends => ?_
  cases result with
  | ok result => exact World.ensures_pure ends
  | error rejection =>
    refine World.ensures_get ?_
    have again := fun arg member => (argsSound arg member).later leads.keeps
    refine (ensures_outcome (ensures_invoke guarded again Registry.staticOnly _ _)).bind
      fun after result _ ends => ?_
    cases result with
    | ok result => exact World.ensures_pure ends
    | error error => cases error <;> exact World.ensures_throw trivial

/-- The scope of a session over safe members is sound. -/
theorem sound_scope (guarded : catalog.Guarded) :
    scope.Sound (world catalog packages alphabet) alphabet where
  heap_eq _ := rfl
  heap sound := sound.heap
  lookup sound := sound.bound
  assign sound valueSound name :=
    ⟨⟨sound.heap, Table.forall_put sound.bound valueSound, sound.served⟩, .refl _⟩
  importType name session := by
    refine (ensures_onRegistry (.importType name) fun _ => rfl).bind fun _ _ _ _ => ?_
    exact World.ensures_pure trivial
  declare declaration session := ensures_declare declaration
  construct argsSound typeName := ensures_invoke guarded argsSound _ typeName none
  call receiverSound argsSound operation := ensures_call guarded receiverSound argsSound operation

end Session

end Colloquy
