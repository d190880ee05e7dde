import Colloquy.Code.Evaluation
import Colloquy.Proofs.Code.LineEnds
import Colloquy.Proofs.Host.Worlds

/-!
# Code over sound states

A scope is sound if its effects lead from sound states to sound states.  Over such a scope, so does
every text that is spelled in the alphabet, and its value is sound.
-/

namespace Colloquy

variable {σ α : Type} {alphabet : Alphabet} {heap : Heap}

namespace Value

theorem sound_some {value : Value} (sound : value.Sound alphabet heap) :
    ∀ found ∈ some value, found.Sound alphabet heap := by
  rintro _ ⟨⟩
  exact sound

theorem later_operand {operand : Option Value} {after : Heap}
    (sound : ∀ value ∈ operand, value.Sound alphabet heap) (keeps : heap.Keeps after) :
    ∀ value ∈ operand, value.Sound alphabet after :=
  fun value member => (sound value member).later keeps

theorem sound_orElse {found last : Option Value}
    (foundSound : ∀ value ∈ found, value.Sound alphabet heap)
    (lastSound : ∀ value ∈ last, value.Sound alphabet heap) :
    ∀ value ∈ (found <|> last), value.Sound alphabet heap := by
  cases found with
  | none => exact lastSound
  | some value => exact foundSound

end Value

namespace Literal

theorem unquote?_subset {text inner : List Char} (quoted : unquote? text = some inner) :
    inner ⊆ text := by
  unfold unquote? at quoted
  split at quoted
  · split at quoted
    · cases quoted
      exact List.subset_cons_of_subset _ (List.dropLast_subset _)
    · cases quoted
  · cases quoted

theorem sound_ofText {text : String} (spelled : alphabet.Spells text.toList) :
    (ofText text).Sound alphabet heap := by
  unfold ofText
  split
  · exact .bool true
  · split
    · exact .bool false
    · split
      · exact .null
      · split
        · exact .number _
        · exact .str spelled

/-- A literal is a bound value or spelled with the characters of its text. -/
theorem sound_resolve {lookup : String → Option Value} {raw : String} {value : Value}
    (bound : ∀ name, ∀ value ∈ lookup name, value.Sound alphabet heap)
    (spelled : alphabet.Spells raw.toList) (resolves : resolve lookup raw = some value) :
    value.Sound alphabet heap := by
  have trimmed : alphabet.Spells (Text.trim raw.toList) := spelled.of_subset (Text.trim_subset _)
  simp only [resolve] at resolves
  split at resolves
  · cases resolves
  · split at resolves
    · rename_i inner quoted
      cases resolves
      refine .str ?_
      rw [String.toList_ofList]
      exact trimmed.of_subset (unquote?_subset quoted)
    · cases resolves
      cases known : lookup (String.ofList (Text.trim raw.toList)) with
      | some value => exact bound _ value known
      | none => exact sound_ofText (by rwa [String.toList_ofList])

end Literal

/-- The values of a pending part are sound, and its text is spelled in the alphabet. -/
def Frame.Sound (alphabet : Alphabet) (heap : Heap) : Frame → Prop
  | literal text => alphabet.Spells text.toList
  | computed value => value.Sound alphabet heap
  | call _ receiver args => receiver.Sound alphabet heap ∧ ∀ arg ∈ args, arg.Sound alphabet heap
  | construction _ args => ∀ arg ∈ args, arg.Sound alphabet heap
  | assignment _ => True
  | addition left => left.Sound alphabet heap

/-- All pending parts are sound. -/
def Stack.Sound (alphabet : Alphabet) (heap : Heap) (stack : Stack) : Prop :=
  ∀ frame ∈ stack, frame.Sound alphabet heap

namespace Frame.Sound

variable {frame : Frame}

theorem later (sound : frame.Sound alphabet heap) {after : Heap} (keeps : heap.Keeps after) :
    frame.Sound alphabet after := by
  cases frame with
  | literal text => exact sound
  | computed value => exact Value.Sound.later sound keeps
  | call operation receiver args =>
    exact ⟨sound.1.later keeps, fun arg member => (sound.2 arg member).later keeps⟩
  | construction typeName args => exact fun arg member => (sound arg member).later keeps
  | assignment name => trivial
  | addition left => exact Value.Sound.later sound keeps

theorem pushArg (sound : frame.Sound alphabet heap) {arg : Value}
    (argSound : arg.Sound alphabet heap) : (frame.pushArg arg).Sound alphabet heap := by
  cases frame with
  | call operation receiver args =>
    exact ⟨sound.1, List.forall_mem_append.2 ⟨sound.2, List.forall_mem_singleton.2 argSound⟩⟩
  | construction typeName args =>
    exact List.forall_mem_append.2 ⟨sound, List.forall_mem_singleton.2 argSound⟩
  | literal | computed | assignment | addition => exact sound

end Frame.Sound

namespace Stack

variable {stack rest : Stack} {frame : Frame}

theorem Sound.later (sound : stack.Sound alphabet heap) {after : Heap} (keeps : heap.Keeps after) :
    stack.Sound alphabet after :=
  fun frame member => (sound frame member).later keeps

theorem sound_nil : Stack.Sound alphabet heap [] := List.forall_mem_nil _

theorem sound_cons_iff :
    Stack.Sound alphabet heap (frame :: rest) ↔
      frame.Sound alphabet heap ∧ Stack.Sound alphabet heap rest :=
  List.forall_mem_cons

theorem sound_gathered {gathered text : String}
    (sound : Stack.Sound alphabet heap (.literal gathered :: rest))
    (spelled : alphabet.Spells text.toList) :
    Stack.Sound alphabet heap (.literal (gathered ++ text) :: rest) := by
  obtain ⟨first, others⟩ := sound_cons_iff.1 sound
  refine sound_cons_iff.2 ⟨?_, others⟩
  rw [Frame.Sound, String.toList_append]
  exact Alphabet.spells_append_iff.2 ⟨first, spelled⟩

end Stack

/-- The effects of a scope lead from sound states to sound states. -/
structure Scope.Sound (scope : Scope σ) (world : World σ) (alphabet : Alphabet) : Prop where
  /-- Values are printed in the heap of the state. -/
  heap_eq : ∀ state, scope.heap state = world.heap state
  /-- The heap of a sound state is sound. -/
  heap : ∀ {state}, world.Sound state → (world.heap state).Sound alphabet
  /-- Bound values are sound. -/
  lookup : ∀ {state}, world.Sound state → ∀ name, ∀ value ∈ scope.lookup state name,
    value.Sound alphabet (world.heap state)
  /-- Sound values may be bound. -/
  assign : ∀ {state value}, world.Sound state → value.Sound alphabet (world.heap state) →
    ∀ name, world.Leads state ((scope.assign name value).run state).2
  /-- Types may be imported. -/
  importType : ∀ name state,
    world.Ensures (scope.importType name) state (fun _ _ => True) fun _ => True
  /-- Handles may be registered. -/
  declare : ∀ declaration state,
    world.Ensures (scope.declare declaration) state (fun _ _ => True) fun _ => True
  /-- Objects are made of sound arguments. -/
  construct : ∀ {state args}, (∀ arg ∈ args, arg.Sound alphabet (world.heap state)) →
    ∀ typeName, world.Ensures (scope.construct typeName args) state
      (fun after result => result.Sound alphabet (world.heap after)) fun _ => True
  /-- Operations are called with sound arguments. -/
  call : ∀ {state receiver args}, receiver.Sound alphabet (world.heap state) →
    (∀ arg ∈ args, arg.Sound alphabet (world.heap state)) → ∀ operation,
      world.Ensures (scope.call operation receiver args) state
        (fun after result => result.Sound alphabet (world.heap after)) fun _ => True

namespace Reducer

/-- A value, if there is one, and pending parts, all of them sound. -/
def OperandSound (alphabet : Alphabet) (heap : Heap) (part : Option Value × Stack) : Prop :=
  (∀ value ∈ part.1, value.Sound alphabet heap) ∧ Stack.Sound alphabet heap part.2

theorem sound_takeOperand {lookup : String → Option Value} {stack : Stack}
    (bound : ∀ name, ∀ value ∈ lookup name, value.Sound alphabet heap)
    (sound : stack.Sound alphabet heap) :
    OperandSound alphabet heap (takeOperand lookup stack) := by
  unfold takeOperand
  split
  · obtain ⟨first, rest⟩ := Stack.sound_cons_iff.1 sound
    exact ⟨fun value resolves => Literal.sound_resolve bound first resolves, rest⟩
  · obtain ⟨first, rest⟩ := Stack.sound_cons_iff.1 sound
    exact ⟨Value.sound_some first, rest⟩
  · exact ⟨by rintro value ⟨⟩, sound⟩

theorem ends_fold (heapSound : heap.Sound alphabet) (line : Nat) {right : Value} {stack : Stack}
    (rightSound : right.Sound alphabet heap) (sound : stack.Sound alphabet heap) :
    Ends (fun part => part.1.Sound alphabet heap ∧ Stack.Sound alphabet heap part.2)
      (fun _ => True) (fold heap line right stack) := by
  induction stack generalizing right with
  | nil => exact ⟨rightSound, sound⟩
  | cons frame rest ih =>
    obtain ⟨first, others⟩ := Stack.sound_cons_iff.1 sound
    cases frame with
    | addition left =>
      rw [fold]
      cases adds : left.add heap right with
      | ok sum => exact ih (Value.sound_add heapSound first rightSound adds) others
      | error error => trivial
    | literal | computed | call | construction | assignment =>
      exact ⟨rightSound, sound⟩

theorem ends_pushText (line : Nat) {text : String} {stack : Stack}
    (spelled : alphabet.Spells text.toList) (sound : stack.Sound alphabet heap) :
    Ends (Stack.Sound alphabet heap) (fun _ => True) (pushText line text stack) := by
  unfold pushText
  split
  · exact Stack.sound_gathered sound spelled
  · trivial
  · exact Stack.sound_cons_iff.2 ⟨spelled, sound⟩

theorem sound_pushSpace {text : String} {stack : Stack} (spelled : alphabet.Spells text.toList)
    (sound : stack.Sound alphabet heap) : (pushSpace text stack).Sound alphabet heap := by
  unfold pushSpace
  split
  · exact Stack.sound_gathered sound spelled
  · exact sound
  · exact Stack.sound_cons_iff.2 ⟨spelled, sound⟩

theorem ends_expectNoOperand (token : String) (line : Nat) {stack : Stack}
    (sound : stack.Sound alphabet heap) :
    Ends (Stack.Sound alphabet heap) (fun _ => True) (expectNoOperand token line stack) := by
  unfold expectNoOperand
  split
  · split
    · exact (Stack.sound_cons_iff.1 sound).2
    · trivial
  · trivial
  · exact sound

theorem ends_expectIdle (token : String) (line : Nat) (stack : Stack) :
    Ends (· = []) (fun _ => True) (expectIdle token line stack) := by
  unfold expectIdle
  cases expectNoOperand token line stack with
  | error error => trivial
  | ok rest =>
    cases rest with
    | nil => exact rfl
    | cons frame rest => trivial

section Steps

variable {scope : Scope σ} {world : World σ} {state : σ}

/-- An effect of a scope on a line. -/
theorem ensures_onLine {effect : Effect σ α} {good : σ → α → Prop} (line : Nat)
    (ensures : world.Ensures effect state good fun _ => True) :
    world.Ensures (onLine line effect) state good fun _ => True :=
  World.Ensures.adapt ensures

section Operands

variable (sound : scope.Sound world alphabet) (holds : world.Sound state) (line : Nat)
  {stack : Stack} (stackSound : stack.Sound alphabet (world.heap state))

include sound holds stackSound

theorem finds_finishOperand :
    Finds (finishOperand scope line stack) state (OperandSound alphabet (world.heap state))
      fun _ => True := by
  obtain ⟨operandSound, restSound⟩ := sound_takeOperand (sound.lookup holds) stackSound
  refine finds_get ?_
  cases outcome : takeOperand (scope.lookup state) stack with
  | mk operand rest =>
    rw [outcome] at operandSound restSound
    cases operand with
    | some value =>
      have folded := ends_fold (sound.heap holds) line (operandSound value rfl) restSound
      rw [← sound.heap_eq] at folded ⊢
      exact (finds_lift folded).bind fun (sum, left) parts =>
        finds_pure ⟨Value.sound_some parts.1, parts.2⟩
    | none =>
      dsimp only
      split
      · exact finds_throw trivial
      · exact finds_pure ⟨operandSound, restSound⟩

theorem finds_plus :
    Finds (plus scope line stack) state (Stack.Sound alphabet (world.heap state))
      fun _ => True := by
  obtain ⟨operandSound, restSound⟩ := sound_takeOperand (sound.lookup holds) stackSound
  refine finds_get ?_
  cases outcome : takeOperand (scope.lookup state) stack with
  | mk operand rest =>
    rw [outcome] at operandSound restSound
    cases operand with
    | some value =>
      have folded := ends_fold (sound.heap holds) line (operandSound value rfl) restSound
      rw [← sound.heap_eq] at folded ⊢
      exact (finds_lift folded).bind fun (left, others) parts =>
        finds_pure (Stack.sound_cons_iff.2 parts)
    | none =>
      exact finds_lift (ends_pushText line (Alphabet.spells_of_isPrintable (by decide)) restSound)

theorem finds_comma :
    Finds (comma scope line stack) state (Stack.Sound alphabet (world.heap state))
      fun _ => True := by
  unfold comma
  split
  · refine (finds_finishOperand sound holds line stackSound).bind ?_
    rintro ⟨operand, rest⟩ ⟨operandSound, restSound⟩
    cases operand with
    | none => exact finds_throw trivial
    | some arg =>
      cases rest with
      | nil => exact finds_pure Stack.sound_nil
      | cons frame rest =>
        obtain ⟨first, others⟩ := Stack.sound_cons_iff.1 restSound
        exact finds_pure (Stack.sound_cons_iff.2 ⟨first.pushArg (operandSound arg rfl), others⟩)
  · exact finds_lift (ends_pushText line (Alphabet.spells_of_isPrintable (by decide)) stackSound)

end Operands

theorem ensures_invoke (sound : scope.Sound world alphabet) (line : Nat) {frame : Frame}
    (frameSound : frame.Sound alphabet (world.heap state)) :
    world.Ensures (invoke scope line frame) state
      (fun after result => result.Sound alphabet (world.heap after)) fun _ => True := by
  cases frame with
  | call operation receiver args =>
    exact ensures_onLine line (sound.call frameSound.1 frameSound.2 operation)
  | construction typeName args => exact ensures_onLine line (sound.construct frameSound typeName)
  | literal | computed | assignment | addition => exact World.ensures_throw trivial

/-- A completed call stands as a value before what was pending outside of it. -/
theorem ensures_completed (sound : scope.Sound world alphabet) (line : Nat) {frame : Frame}
    {rest : Stack} (frameSound : frame.Sound alphabet (world.heap state))
    (restSound : Stack.Sound alphabet (world.heap state) rest) :
    world.Ensures (do return .computed (← invoke scope line frame) :: rest) state
      (fun after stack => Stack.Sound alphabet (world.heap after) stack) fun _ => True :=
  (ensures_invoke sound line frameSound).bind fun _ _ leads resultSound =>
    World.ensures_pure (Stack.sound_cons_iff.2 ⟨resultSound, restSound.later leads.keeps⟩)

theorem ensures_close (sound : scope.Sound world alphabet) (line : Nat) {stack : Stack}
    (stackSound : stack.Sound alphabet (world.heap state)) :
    world.Ensures (close scope line stack) state
      (fun after stack => Stack.Sound alphabet (world.heap after) stack) fun _ => True := by
  refine World.ensures_of_sound fun holds => ?_
  unfold close
  split
  · refine (finds_finishOperand sound holds line stackSound).then ?_
    rintro ⟨operand, rest⟩ ⟨operandSound, restSound⟩
    cases rest with
    | nil => cases operand <;> exact World.ensures_pure Stack.sound_nil
    | cons frame rest =>
      obtain ⟨first, others⟩ := Stack.sound_cons_iff.1 restSound
      cases operand with
      | some arg => exact ensures_completed sound line (first.pushArg (operandSound arg rfl)) others
      | none =>
        dsimp only
        split
        · exact ensures_completed sound line first others
        · exact World.ensures_throw trivial
  · exact World.ensures_lift
      (ends_pushText line (Alphabet.spells_of_isPrintable (by decide)) stackSound)

/-- The value of a line, if it has one, is sound. -/
theorem ensures_settle (sound : scope.Sound world alphabet) (line : Nat) {operand : Option Value}
    (operandSound : ∀ value ∈ operand, value.Sound alphabet (world.heap state)) {stack : Stack}
    (stackSound : stack.Sound alphabet (world.heap state)) :
    world.Ensures (settle scope line operand stack) state
      (fun after result => ∀ value ∈ result, value.Sound alphabet (world.heap after))
      fun _ => True := by
  induction stack generalizing operand state with
  | nil => exact World.ensures_pure operandSound
  | cons frame rest ih =>
    obtain ⟨first, others⟩ := Stack.sound_cons_iff.1 stackSound
    -- a call is made with the operand as its last argument, and its result settles the rest
    have called {complete : Frame} (completeSound : complete.Sound alphabet (world.heap state)) :
        world.Ensures (do settle scope line (some (← invoke scope line complete)) rest) state
          (fun after result => ∀ value ∈ result, value.Sound alphabet (world.heap after))
          fun _ => True := by
      refine (ensures_invoke sound line completeSound).bind fun after value leads valueSound => ?_
      exact ih (Value.sound_some valueSound) (others.later leads.keeps)
    have completed : (operand.elim frame frame.pushArg).Sound alphabet (world.heap state) := by
      cases operand with
      | none => exact first
      | some value => exact first.pushArg (operandSound value rfl)
    cases frame with
    | literal | computed | call | construction => exact called completed
    | addition left =>
      cases operand with
      | none => exact World.ensures_throw trivial
      | some right =>
        refine World.ensures_of_sound fun holds => World.ensures_get ?_
        rw [sound.heap_eq]
        split
        · rename_i sum adds
          have sumSound := Value.sound_add (sound.heap holds) first (operandSound right rfl) adds
          exact ih (Value.sound_some sumSound) others
        · exact World.ensures_throw trivial
    | assignment name =>
      cases operand with
      | none => exact World.ensures_throw trivial
      | some value =>
        have valueSound := operandSound value rfl
        have assigned : world.Ensures (liftM (scope.assign name value) : Step σ Unit) state
            (fun _ _ => True) fun _ => True :=
          World.ensures_liftState (fun holds => sound.assign holds valueSound name) trivial
        exact assigned.bind fun after _ leads _ =>
          ih (Value.sound_some (valueSound.later leads.keeps)) (others.later leads.keeps)

theorem ensures_closeLine (sound : scope.Sound world alphabet) (line : Nat) {stack : Stack}
    (stackSound : stack.Sound alphabet (world.heap state)) :
    world.Ensures (closeLine scope line stack) state
      (fun after result => ∀ value ∈ result, value.Sound alphabet (world.heap after))
      fun _ => True := by
  refine World.ensures_of_sound fun holds => World.ensures_get ?_
  obtain ⟨operandSound, restSound⟩ := sound_takeOperand (sound.lookup holds) stackSound
  exact ensures_settle sound line operandSound restSound

/-- A token whose text is spelled in the alphabet leads to sound pending parts. -/
theorem ensures_shift (sound : scope.Sound world alphabet) (line : Nat) {token : Token}
    (spelled : ∀ written ∈ token.text?, alphabet.Spells written.toList) {stack : Stack}
    (stackSound : stack.Sound alphabet (world.heap state)) :
    world.Ensures (shift scope line token stack) state
      (fun after stack => Stack.Sound alphabet (world.heap after) stack) fun _ => True := by
  refine World.ensures_of_sound fun holds => ?_
  cases token with
  | word text | char text | quoted text =>
    exact World.ensures_lift (ends_pushText line (spelled text rfl) stackSound)
  | space text => exact World.ensures_pure (sound_pushSpace (spelled text rfl) stackSound)
  | plus => exact (finds_plus sound holds line stackSound).ensures fun _ holds => holds
  | comma => exact (finds_comma sound holds line stackSound).ensures fun _ holds => holds
  | close => exact ensures_close sound line stackSound
  | assign name =>
    refine (finds_lift (ends_expectNoOperand _ line stackSound)).then fun rest restSound => ?_
    exact World.ensures_pure (Stack.sound_cons_iff.2 ⟨trivial, restSound⟩)
  | new typeName =>
    refine (finds_lift (ends_expectNoOperand _ line stackSound)).then fun rest restSound => ?_
    exact World.ensures_pure (Stack.sound_cons_iff.2 ⟨List.forall_mem_nil _, restSound⟩)
  | call operation =>
    obtain ⟨operandSound, restSound⟩ := sound_takeOperand (sound.lookup holds) stackSound
    refine World.ensures_get ?_
    cases outcome : takeOperand (scope.lookup state) stack with
    | mk operand rest =>
      rw [outcome] at operandSound restSound
      cases operand with
      | none => exact World.ensures_throw trivial
      | some receiver =>
        exact World.ensures_pure (Stack.sound_cons_iff.2
          ⟨⟨operandSound receiver rfl, List.forall_mem_nil _⟩, restSound⟩)
  | importType typeName =>
    refine (finds_lift (ends_expectIdle _ line stack)).then ?_
    rintro _ rfl
    refine (ensures_onLine line (sound.importType typeName state)).bind fun _ _ _ _ => ?_
    exact World.ensures_pure Stack.sound_nil
  | declaration statement =>
    refine (finds_lift (ends_expectIdle _ line stack)).then ?_
    rintro _ rfl
    refine (ensures_onLine line (sound.declare statement state)).bind fun _ _ _ _ => ?_
    exact World.ensures_pure Stack.sound_nil
  | newLine =>
    refine (ensures_closeLine sound line stackSound).bind fun _ _ _ _ => ?_
    exact World.ensures_pure Stack.sound_nil

end Steps

end Reducer

namespace Evaluation

variable {scope : Scope σ} {world : World σ} {state : σ}

/-- Stretches of code whose texts are spelled in the alphabet lead to a sound state, and their value
is sound. -/
theorem ensures_run (sound : scope.Sound world alphabet) (line : Nat) {lexemes : List Lexeme}
    (spelled : ∀ lexeme ∈ lexemes, ∀ token ∈ lexeme.token?, ∀ written ∈ token.text?,
      alphabet.Spells written.toList) {stack : Stack}
    (stackSound : stack.Sound alphabet (world.heap state)) {last : Option Value}
    (lastSound : ∀ value ∈ last, value.Sound alphabet (world.heap state)) :
    world.Ensures (run scope line stack last lexemes) state
      (fun after result => ∀ value ∈ result, value.Sound alphabet (world.heap after))
      fun _ => True := by
  induction lexemes generalizing line stack last state with
  | nil =>
    refine (Reducer.ensures_closeLine sound line stackSound).bind fun _ _ leads valueSound => ?_
    have lastLater := Value.later_operand lastSound leads.keeps
    exact World.ensures_pure (Value.sound_orElse valueSound lastLater)
  | cons lexeme rest ih =>
    obtain ⟨first, others⟩ := List.forall_mem_cons.1 spelled
    unfold run
    split
    · exact World.ensures_throw trivial
    · refine (Reducer.ensures_closeLine sound line stackSound).bind fun _ _ leads valueSound => ?_
      have lastLater := Value.later_operand lastSound leads.keeps
      exact ih (line + 1) others Stack.sound_nil (Value.sound_orElse valueSound lastLater)
    · rename_i token _ known
      refine (Reducer.ensures_shift sound line (first token known) stackSound).bind
        fun _ _ leads restSound => ?_
      exact ih line others restSound (Value.later_operand lastSound leads.keeps)

/-- A text that is spelled in the alphabet leads from a sound state to a sound state, and its value
is sound. -/
theorem ensures_evaluate (sound : scope.Sound world alphabet) {source : String}
    (spelled : alphabet.Spells source.toList) (line : Nat) :
    world.Ensures (evaluate scope source line) state
      (fun after result => ∀ value ∈ result, value.Sound alphabet (world.heap after))
      fun _ => True := by
  refine ensures_run sound line (fun lexeme member token known written textual => ?_)
    Stack.sound_nil (by rintro _ ⟨⟩)
  exact spelled.of_subset (Lexer.written_subset lexeme member token known written textual)

end Evaluation

end Colloquy
