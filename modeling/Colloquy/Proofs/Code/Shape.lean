import Mathlib.Data.List.Chain
import Colloquy.Proofs.Code.Nesting
import Colloquy.Proofs.Signature.Reading

/-!
# The shape of the stack

However a line is written, at most one operand is pending while it is reduced, on top of the parts
that wait for it.  No sum waits right above another one, as a plus sign adds up what is pending
before it waits for its right operand.
-/

namespace Colloquy

namespace Frame

@[simp]
theorem isOperand_pushArg (frame : Frame) (arg : Value) :
    (frame.pushArg arg).isOperand = frame.isOperand := by
  cases frame <;> rfl

@[simp]
theorem isAddition_pushArg (frame : Frame) (arg : Value) :
    (frame.pushArg arg).isAddition = frame.isAddition := by
  cases frame <;> rfl

end Frame

open Reducer (Open)

namespace Stack

/-- Parts that wait for an operand, none of them a sum right above another sum. -/
structure Waiting (stack : Stack) : Prop where
  /-- Nothing is an operand. -/
  operands : ∀ frame ∈ stack, frame.isOperand = false
  /-- No sum waits for another sum. -/
  sums : stack.IsChain fun upper lower => upper.isAddition → lower.isAddition = false

/-- Waiting parts, with at most one operand on top of them. -/
inductive Shaped : Stack → Prop where
  | waiting {stack : Stack} (waits : stack.Waiting) : Shaped stack
  | pending {operand : Frame} {rest : Stack} (isOperand : operand.isOperand)
    (waits : rest.Waiting) : Shaped (operand :: rest)

theorem waiting_nil : Waiting [] := ⟨List.forall_mem_nil _, .nil⟩

theorem shaped_nil : Shaped [] := .waiting waiting_nil

theorem Waiting.tail {frame : Frame} {rest : Stack} (waits : Waiting (frame :: rest)) :
    rest.Waiting :=
  ⟨fun other member => waits.operands other (.tail _ member), waits.sums.tail⟩

theorem Waiting.of_append {above below : Stack} (waits : Waiting (above ++ below)) :
    below.Waiting := by
  induction above with
  | nil => exact waits
  | cons frame above ih => exact ih waits.tail

/-- One more part waits; a sum only where no other one waits. -/
theorem Waiting.push {frame : Frame} {rest : Stack} (waits : rest.Waiting)
    (noOperand : frame.isOperand = false) (noSum : frame.isAddition → Open rest) :
    Waiting (frame :: rest) := by
  refine ⟨List.forall_mem_cons.2 ⟨noOperand, waits.operands⟩, ?_⟩
  cases rest with
  | nil => exact .singleton _
  | cons lower rest => exact .cons_cons (fun sum => (noSum sum lower rfl).2) waits.sums

theorem Waiting.pushArg {frame : Frame} {rest : Stack} (waits : Waiting (frame :: rest))
    (arg : Value) : Waiting (frame.pushArg arg :: rest) := by
  refine waits.tail.push ?_ fun sum => ?_
  · rw [frame.isOperand_pushArg]
    exact waits.operands frame (.head _)
  · intro lower member
    cases rest with
    | nil => cases member
    | cons next rest =>
      cases member
      rw [frame.isAddition_pushArg] at sum
      exact ⟨waits.operands _ (.tail _ (.head _)), waits.sums.rel sum⟩

/-- Below its top a stack of the right shape only waits. -/
theorem Shaped.tail {frame : Frame} {rest : Stack} (shaped : Shaped (frame :: rest)) :
    rest.Waiting := by
  cases shaped with
  | waiting waits => exact waits.tail
  | pending _ waits => exact waits

/-- Without an operand on its top a stack of the right shape only waits. -/
theorem Shaped.waiting_of_ready {stack : Stack} (shaped : stack.Shaped)
    (ready : Reducer.Ready stack) : stack.Waiting := by
  cases shaped with
  | waiting waits => exact waits
  | pending isOperand waits => exact absurd isOperand (by simp [ready _ rfl])

end Stack

namespace Reducer

open Stack (Shaped shaped_nil waiting_nil)

variable {σ α : Type}

section Operands

variable {stack after rest : Stack} {line : Nat}

theorem ready_of_forall_ne (noLiteral : ∀ text rest, stack ≠ .literal text :: rest)
    (noValue : ∀ value rest, stack ≠ .computed value :: rest) : Ready stack := by
  intro frame member
  cases stack with
  | nil => cases member
  | cons first below =>
    cases member
    cases frame with
    | literal text => exact absurd rfl (noLiteral text below)
    | computed value => exact absurd rfl (noValue value below)
    | call | construction | assignment | addition => rfl

theorem waiting_takeOperand (shaped : stack.Shaped) (lookup : String → Option Value) :
    (takeOperand lookup stack).2.Waiting := by
  cases shaped with
  | waiting waits =>
    unfold takeOperand
    split
    · exact waits.tail
    · exact waits.tail
    · exact waits
  | @pending operand _ isOperand waits =>
    cases operand with
    | literal | computed => exact waits
    | call | construction | assignment | addition => simp [Frame.isOperand] at isOperand

/-- Adding up leaves no sum on top. -/
theorem waiting_fold {heap : Heap} {right total : Value} (waits : stack.Waiting)
    (folds : fold heap line right stack = .ok (total, rest)) : rest.Waiting ∧ Open rest := by
  fun_induction fold heap line right stack with
  | case1 right left below sum adds ih => exact ih waits.tail folds
  | case2 => cases folds
  | case3 right waiting noSum =>
    cases folds
    refine ⟨waits, fun frame member => ⟨waits.operands frame (List.mem_of_mem_head? member), ?_⟩⟩
    cases rest with
    | nil => cases member
    | cons first below =>
      cases member
      cases frame with
      | addition left => exact absurd rfl (noSum left below)
      | literal | computed | call | construction | assignment => rfl

theorem shaped_pushText {text : String} (shaped : stack.Shaped)
    (pushes : pushText line text stack = .ok after) : after.Shaped := by
  unfold pushText at pushes
  split at pushes
  · cases pushes
    exact .pending rfl shaped.tail
  · cases pushes
  · rename_i noLiteral noValue
    cases pushes
    exact .pending rfl (shaped.waiting_of_ready (ready_of_forall_ne noLiteral noValue))

theorem shaped_pushSpace (shaped : stack.Shaped) (text : String) :
    (pushSpace text stack).Shaped := by
  cases stack with
  | nil => exact .pending rfl waiting_nil
  | cons frame rest =>
    cases frame with
    | literal gathered => exact .pending rfl shaped.tail
    | computed value => exact shaped
    | call | construction | assignment | addition =>
      refine .pending rfl (shaped.waiting_of_ready ?_)
      rintro _ ⟨⟩
      rfl

theorem waiting_expectNoOperand {token : String} (shaped : stack.Shaped)
    (free : expectNoOperand token line stack = .ok after) : after.Waiting := by
  unfold expectNoOperand at free
  split at free
  · split at free
    · cases free
      exact shaped.tail
    · cases free
  · cases free
  · rename_i noLiteral noValue
    cases free
    exact shaped.waiting_of_ready (ready_of_forall_ne noLiteral noValue)

end Operands

section Shifting

variable (scope : Scope σ) (line : Nat) {stack : Stack}

theorem gives_lift {good : α → Prop} {outcome : Except Error α}
    (fine : ∀ result, outcome = .ok result → good result) :
    Gives good (liftM outcome : Step σ α) := by
  cases outcome with
  | error error => exact gives_throw error
  | ok result => exact gives_pure (fine result rfl)

theorem gives_get {good : α → Prop} {next : σ → Step σ α}
    (fine : ∀ state, Gives good (next state)) : Gives good (get >>= next : Step σ α) :=
  fun before after result success => fine before before after result success

theorem gives_finishOperand (shaped : stack.Shaped) :
    Gives (fun result : Option Value × Stack => result.2.Waiting ∧ Open result.2)
      (finishOperand scope line stack) := by
  refine gives_get fun state => ?_
  have waits := waiting_takeOperand shaped (scope.lookup state)
  cases taken : takeOperand (scope.lookup state) stack with
  | mk operand rest =>
    rw [taken] at waits
    cases operand with
    | some value =>
      have folded : Gives (fun result : Value × Stack => result.2.Waiting ∧ Open result.2)
          (liftM (fold (scope.heap state) line value rest) : Step σ _) :=
        gives_lift fun result folds => waiting_fold waits folds
      exact gives_bind folded fun result fine => gives_pure fine
    | none =>
      dsimp only
      split
      · exact gives_throw _
      · rename_i noSum
        refine gives_pure ⟨waits, fun frame member => ?_⟩
        refine ⟨waits.operands frame (List.mem_of_mem_head? member), ?_⟩
        simpa [Option.mem_def.1 member] using noSum

theorem gives_plus (shaped : stack.Shaped) : Gives Stack.Shaped (plus scope line stack) := by
  refine gives_get fun state => ?_
  have waits := waiting_takeOperand shaped (scope.lookup state)
  cases taken : takeOperand (scope.lookup state) stack with
  | mk operand rest =>
    rw [taken] at waits
    cases operand with
    | some value =>
      have folded : Gives (fun result : Value × Stack => result.2.Waiting ∧ Open result.2)
          (liftM (fold (scope.heap state) line value rest) : Step σ _) :=
        gives_lift fun result folds => waiting_fold waits folds
      refine gives_bind folded fun result fine => gives_pure ?_
      exact .waiting (fine.1.push rfl fun _ => fine.2)
    | none => exact gives_lift fun after pushes => shaped_pushText (.waiting waits) pushes

theorem gives_comma (shaped : stack.Shaped) : Gives Stack.Shaped (comma scope line stack) := by
  unfold comma
  split
  · refine gives_bind (gives_finishOperand scope line shaped) fun result fine => ?_
    obtain ⟨operand, rest⟩ := result
    cases operand with
    | none => exact gives_throw _
    | some arg =>
      cases rest with
      | nil => exact gives_pure shaped_nil
      | cons frame rest => exact gives_pure (.waiting (fine.1.pushArg arg))
  · exact gives_lift fun after pushes => shaped_pushText shaped pushes

theorem gives_close (shaped : stack.Shaped) : Gives Stack.Shaped (close scope line stack) := by
  unfold close
  split
  · refine gives_bind (gives_finishOperand scope line shaped) fun result fine => ?_
    obtain ⟨operand, rest⟩ := result
    cases rest with
    | nil => cases operand <;> exact gives_pure shaped_nil
    | cons frame rest =>
      have completed (waiting : Frame) : Gives Stack.Shaped
          (invoke scope line waiting >>= fun value => pure (.computed value :: rest)) :=
        gives_bind (gives_any _) fun value _ => gives_pure (.pending rfl fine.1.tail)
      cases operand with
      | some arg => exact completed _
      | none =>
        dsimp only
        split
        · exact completed _
        · exact gives_throw _
  · exact gives_lift fun after pushes => shaped_pushText shaped pushes

/-- Shifting a token keeps the shape of the stack. -/
theorem gives_shift (token : Token) (shaped : stack.Shaped) :
    Gives Stack.Shaped (shift scope line token stack) := by
  have texts (text : String) : Gives Stack.Shaped (liftM (pushText line text stack) : Step σ _) :=
    gives_lift fun after pushes => shaped_pushText shaped pushes
  have opens (name : String) (frame : Frame) (isOpening : frame.isOperand = false)
      (noSum : frame.isAddition = false) : Gives Stack.Shaped
        ((liftM (expectNoOperand name line stack) : Step σ _) >>= fun rest =>
          pure (frame :: rest)) := by
    have free : Gives Stack.Waiting (liftM (expectNoOperand name line stack) : Step σ _) :=
      gives_lift fun rest free => waiting_expectNoOperand shaped free
    refine gives_bind free fun rest waits => gives_pure (.waiting ?_)
    exact waits.push isOpening (by simp [noSum])
  have states (name : String) (effect : Effect σ Unit) : Gives Stack.Shaped
      ((liftM (expectIdle name line stack) : Step σ _) >>= fun rest =>
        onLine line effect >>= fun _ => pure rest) := by
    have idle : Gives (· = ([] : Stack)) (liftM (expectIdle name line stack) : Step σ _) :=
      gives_lift fun rest idle => (pending_expectIdle idle).1
    refine gives_bind idle fun rest empty => ?_
    refine gives_bind (gives_any _) fun _ _ => gives_pure ?_
    rw [empty]
    exact shaped_nil
  cases token with
  | word text => exact texts text
  | char text => exact texts text
  | quoted text => exact texts text
  | space text => exact gives_pure (shaped_pushSpace shaped text)
  | plus => exact gives_plus scope line shaped
  | comma => exact gives_comma scope line shaped
  | close => exact gives_close scope line shaped
  | assign name => exact opens _ _ rfl rfl
  | new typeName => exact opens _ _ rfl rfl
  | call operation =>
    refine gives_get fun state => ?_
    have waits := waiting_takeOperand shaped (scope.lookup state)
    cases taken : takeOperand (scope.lookup state) stack with
    | mk operand rest =>
      rw [taken] at waits
      cases operand with
      | none => exact gives_throw _
      | some receiver => exact gives_pure (.waiting (waits.push rfl (by simp [Frame.isAddition])))
  | importType typeName => exact states _ _
  | declaration declaration => exact states _ _
  | newLine => exact gives_bind (gives_any _) fun _ _ => gives_pure shaped_nil

theorem gives_shiftAll (tokens : List Token) (shaped : stack.Shaped) :
    Gives Stack.Shaped (shiftAll scope line tokens stack) := by
  induction tokens generalizing stack with
  | nil => exact gives_pure shaped
  | cons token tokens ih =>
    exact gives_bind (gives_shift scope line token shaped) fun next still => ih still

/-- Every stack that tokens are shifted onto from an empty one has the right shape. -/
theorem shaped_of_shifts {tokens : List Token} {state now : σ}
    (shifts : (shiftAll scope line tokens []).run.run state = (.ok stack, now)) : stack.Shaped :=
  gives_shiftAll scope line tokens shaped_nil state now stack shifts

end Shifting

end Reducer

end Colloquy
