import Colloquy.Proofs.Code.LineClosing

/-!
# Branches that no line reaches

A bracket completes a call, and the end of a line completes calls and assignments, one at each turn.
What the reduction does with anything else, or with a bracket on an empty stack, makes no
difference: whatever it did there, every line would be reduced as it is.
-/

namespace Colloquy

/-- The frame waits for an operand that completes it. -/
def Frame.isContainer (frame : Frame) : Bool := frame.isCall || frame.isAssignment

/-- The number of calls, constructions and assignments that are open. -/
def Stack.containers (stack : Stack) : Nat := stack.countP Frame.isContainer

namespace Reducer

variable {σ : Type}

/-- What is done where a line never leads. -/
structure Fallbacks (σ : Type) where
  /-- The end of a line meets an operand or a sum in the place of what waits for it. -/
  leftover : Frame → Step σ (Option Value)
  /-- Something other than a call is to be completed. -/
  uncalled : Frame → Step σ Value
  /-- Nothing is left below the last argument of a call. -/
  bare : Step σ Stack

/-- What is done there as it is. -/
def Fallbacks.standard (line : Nat) : Fallbacks σ where
  leftover frame := throw (.parse (.unexpectedToken frame.label line))
  uncalled frame := throw (.parse (.unexpectedToken frame.label line))
  bare := return []

/-- What a turn at the end of a line leads to. -/
inductive Turn where
  | done (value : Option Value)
  | again (stack : Stack)

section Definitions

variable (fallbacks : Fallbacks σ) (scope : Scope σ) (line : Nat)

/-- The result of a call, or what is done with anything else. -/
def invokeOr (frame : Frame) : Step σ Value :=
  if frame.isCall then invoke scope line frame else fallbacks.uncalled frame

/-- A closing bracket with any fallbacks. -/
def closeOr (stack : Stack) : Step σ Stack := do
  if inCall stack then
    match ← finishOperand scope line stack with
    | (some arg, frame :: rest) =>
      return .computed (← invokeOr fallbacks scope line (frame.pushArg arg)) :: rest
    | (none, frame :: rest) =>
      if frame.args.isEmpty then
        return .computed (← invokeOr fallbacks scope line frame) :: rest
      else throw (.parse (.emptyArgument line))
    | (_, []) => fallbacks.bare
  else pushText line ")" stack

/-- Completes the innermost part of a stack with an operand. -/
def completeTop (operand : Option Value) : Stack → Step σ Turn
  | [] => return .done operand
  | .assignment name :: rest => do
    let some value := operand | throw (.parse (.missingValue line))
    scope.assign name value
    return .again (.computed value :: rest)
  | frame :: rest =>
    if frame.isCall then
      return .again (.computed (← invokeOr fallbacks scope line
        (operand.elim frame frame.pushArg)) :: rest)
    else
      return .done (← fallbacks.leftover frame)

/-- One turn at the end of a line: the pending operand, with the sums before it, completes what
waits for it, and the value becomes the operand of the next turn. -/
def turn (stack : Stack) : Step σ Turn := do
  let (operand, rest) ← finishOperand scope line stack
  completeTop fallbacks scope line operand rest

/-- So many turns, or fewer if the line is done before. -/
def turns : Nat → Stack → Step σ Turn
  | 0, stack => return .again stack
  | count + 1, stack => do
    match ← turn fallbacks scope line stack with
    | .done value => return .done value
    | .again rest => turns count rest

end Definitions

/-- The stacks that shifts lead to from an empty one.  A shift that fails may take any number of
parts off the stack. -/
inductive Reached (scope : Scope σ) : σ → Stack → Prop
  | empty (state : σ) : Reached scope state []
  | shift {state after : σ} {stack next : Stack} {line : Nat} {token : Token}
    (reached : Reached scope state stack)
    (shifts : (Reducer.shift scope line token stack).run.run state = (.ok next, after)) :
    Reached scope after next
  | refuse {state after : σ} {stack kept : Stack} {line : Nat} {token : Token} {error : Error}
    (reached : Reached scope state stack)
    (fails : (Reducer.shift scope line token stack).run.run state = (.error error, after))
    (left : kept <:+ stack) : Reached scope after kept

end Reducer

namespace Stack

/-- What is left of a stack of the right shape has the right shape. -/
theorem Shaped.of_suffix {stack kept : Stack} (shaped : stack.Shaped) (left : kept <:+ stack) :
    kept.Shaped := by
  obtain ⟨gone, rfl⟩ := left
  cases gone with
  | nil => exact shaped
  | cons frame gone => exact .waiting shaped.tail.of_append

/-- What is below an operand and its sums waits for them. -/
theorem Shaped.waiting_of_append {above rest : Stack} (shaped : Shaped (above ++ rest))
    (ready : Reducer.Ready rest) : rest.Waiting := by
  cases above with
  | nil => exact shaped.waiting_of_ready ready
  | cons frame above => exact shaped.tail.of_append

/-- Operands and sums are pending above what waits for them. -/
theorem exists_boundary (stack : Stack) :
    ∃ above rest, stack = above ++ rest ∧ Reducer.OfOperands above ∧ Reducer.Open rest := by
  induction stack with
  | nil => exact ⟨[], [], rfl, List.forall_mem_nil _, fun _ member => nomatch member⟩
  | cons frame rest ih =>
    by_cases passing : frame.isOperand ∨ frame.isAddition
    · obtain ⟨above, below, rfl, ofOperands, isOpen⟩ := ih
      exact ⟨frame :: above, below, rfl, List.forall_mem_cons.2 ⟨passing, ofOperands⟩, isOpen⟩
    · refine ⟨[], frame :: rest, rfl, List.forall_mem_nil _, ?_⟩
      rintro _ ⟨⟩
      simpa using passing

/-- At most one operand is pending, on top. -/
theorem Shaped.isOperand_tail {stack : Stack} (shaped : stack.Shaped) :
    ∀ frame ∈ stack.tail, frame.isOperand = false := by
  cases shaped with
  | waiting waits => exact fun frame member => waits.operands frame (List.mem_of_mem_tail member)
  | pending _ waits => exact waits.operands

/-- No sum is right above another one. -/
theorem Shaped.sums_apart {stack : Stack} (shaped : stack.Shaped) :
    stack.IsChain fun upper lower => ¬ (upper.isAddition ∧ lower.isAddition) := by
  have apart {rest : Stack} (waits : rest.Waiting) :
      rest.IsChain fun upper lower => ¬ (upper.isAddition ∧ lower.isAddition) :=
    waits.sums.imp fun upper lower apart both => by simp [apart both.1] at both
  cases shaped with
  | waiting waits => exact apart waits
  | @pending operand rest isOperand waits =>
    have noSum : operand.isAddition = false := by
      cases operand with
      | literal | computed => rfl
      | call | construction | assignment | addition => cases isOperand
    exact List.isChain_cons.2 ⟨fun _ _ both => by simp [noSum] at both, apart waits⟩

end Stack

namespace Reducer

variable {σ : Type} {fallbacks : Fallbacks σ} {scope : Scope σ} {line : Nat} {stack : Stack}

theorem Reached.shaped {state : σ} (reached : Reached scope state stack) : stack.Shaped := by
  induction reached with
  | empty => exact Stack.shaped_nil
  | shift _ shifts shaped => exact gives_shift scope _ _ shaped _ _ _ shifts
  | refuse _ _ left shaped => exact shaped.of_suffix left

/-- Tokens that are shifted one after another lead to a stack that is reached. -/
theorem Reached.shiftAll {state after : σ} {next : Stack} {tokens : List Token}
    (reached : Reached scope state stack)
    (shifts : (Reducer.shiftAll scope line tokens stack).run.run state = (.ok next, after)) :
    Reached scope after next := by
  induction tokens generalizing state stack with
  | nil =>
    cases shifts
    exact reached
  | cons token tokens ih =>
    obtain ⟨middle, between, first, rest⟩ := run_bind_ok shifts
    exact ih (reached.shift first) rest

theorem invokeOr_of_isCall {frame : Frame} (isCall : frame.isCall) :
    invokeOr fallbacks scope line frame = invoke scope line frame :=
  if_pos isCall

/-- Where a bracket belongs to a call, that call is below its last argument. -/
theorem gives_call (shaped : stack.Shaped) (within : inCall stack) :
    Gives (fun result => ∃ call rest, result.2 = call :: rest ∧ call.isCall)
      (finishOperand scope line stack) := by
  obtain ⟨above, call, below, ⟨rfl, isCall, noCall⟩, noAssignment⟩ := innermost_of_inCall within
  have ofOperands := OfOperands.of_noContainer noCall noAssignment
  rw [finishOperand_append scope line shaped ofOperands (open_of_isCall isCall below)]
  exact gives_bind (gives_any _) fun arg _ => gives_pure ⟨call, below, rfl, isCall⟩

/-- A bracket completes a call or is text. -/
theorem closeOr_eq (shaped : stack.Shaped) :
    closeOr fallbacks scope line stack = close scope line stack := by
  rw [closeOr, close]
  split
  · rename_i within
    refine bind_congr_of_gives (gives_call shaped within) ?_
    rintro ⟨operand, _⟩ ⟨call, rest, rfl, isCall⟩
    cases operand with
    | some arg => simp only [invokeOr_of_isCall (Frame.isCall_pushArg isCall arg)]
    | none => simp only [invokeOr_of_isCall isCall]
  · rfl

theorem closeOr_standard (stack : Stack) :
    closeOr (.standard line) scope line stack = close scope line stack := by
  have completed : invokeOr (.standard line) scope line = invoke scope line := by
    funext frame
    cases frame <;> rfl
  rw [closeOr, close, completed]
  rfl

/-- What is left to do after a turn. -/
def Turn.resume (next : Stack → Step σ (Option Value)) : Turn → Step σ (Option Value)
  | .done value => pure value
  | .again rest => next rest

/-- A turn takes the operand and the sums before it as a line of their own. -/
theorem turn_append {above rest : Stack} (shaped : Stack.Shaped (above ++ rest))
    (ofOperands : OfOperands above) (isOpen : Open rest) :
    turn fallbacks scope line (above ++ rest) =
      closeLine scope line above >>= fun operand =>
        completeTop fallbacks scope line operand rest := by
  rw [turn, finishOperand_append scope line shaped ofOperands isOpen, bind_assoc]
  simp only [pure_bind]

theorem closeLine_computed (value : Value) (rest : Stack) :
    closeLine scope line (.computed value :: rest) = settle scope line (some value) rest :=
  rfl

/-- What waits for an operand is completed, and then the rest of the line. -/
theorem settle_eq_completeTop {rest : Stack} (waits : rest.Waiting) (isOpen : Open rest)
    (operand : Option Value) :
    settle scope line operand rest =
      completeTop fallbacks scope line operand rest >>= Turn.resume (closeLine scope line) := by
  cases rest with
  | nil => rfl
  | cons frame below =>
    cases frame with
    | call | construction =>
      simp only [settle, completeTop, Frame.isCall, if_true, bind_assoc, pure_bind, Turn.resume,
        closeLine_computed]
      rw [invokeOr_of_isCall]
      cases operand <;> rfl
    | assignment name =>
      cases operand with
      | none => rfl
      | some value =>
        simp only [settle, completeTop, bind_assoc, pure_bind, Turn.resume, closeLine_computed]
    | literal | computed => cases waits.operands _ (.head _)
    | addition => cases (isOpen _ rfl).2

/-- The end of a line is one turn and the end of what it leaves. -/
theorem closeLine_eq_turn (fallbacks : Fallbacks σ) (shaped : stack.Shaped) :
    closeLine scope line stack =
      turn fallbacks scope line stack >>= Turn.resume (closeLine scope line) := by
  obtain ⟨above, rest, rfl, ofOperands, isOpen⟩ := stack.exists_boundary
  rw [turn_append shaped ofOperands isOpen, bind_assoc, closeLine_append scope line isOpen.ready]
  congr 1
  funext operand
  exact settle_eq_completeTop (shaped.waiting_of_append isOpen.ready) isOpen operand

/-- Operands and sums are no containers. -/
theorem OfOperands.containers_append {above : Stack} (ofOperands : OfOperands above)
    (rest : Stack) : Stack.containers (above ++ rest) = rest.containers := by
  have none : above.countP Frame.isContainer = 0 := by
    refine List.countP_eq_zero.2 fun frame member => ?_
    rcases ofOperands frame member with isOperand | isAddition
    · cases frame <;> first | exact Bool.false_ne_true | cases isOperand
    · cases frame <;> first | exact Bool.false_ne_true | cases isAddition
  rw [Stack.containers, List.countP_append, none, Nat.zero_add, Stack.containers]

/-- If the line is not done yet, what is left of a stack has the right shape and so many containers
less. -/
def Turn.Removes (stack : Stack) (count : Nat) : Turn → Prop
  | .done _ => True
  | .again rest => rest.Shaped ∧ rest.containers + count = stack.containers

/-- What is completed is the innermost container. -/
theorem gives_completeTop {rest : Stack} (waits : rest.Waiting) (operand : Option Value) :
    Gives (Turn.Removes rest 1) (completeTop fallbacks scope line operand rest) := by
  cases rest with
  | nil => exact gives_pure trivial
  | cons frame below =>
    have next (value : Value) (container : frame.isContainer) :
        Turn.Removes (frame :: below) 1 (.again (.computed value :: below)) := by
      refine ⟨.pending rfl waits.tail, ?_⟩
      rw [Stack.containers, Stack.containers, List.countP_cons_of_pos container]
      rfl
    cases frame with
    | call | construction =>
      exact gives_bind (gives_any _) fun value _ => gives_pure (next value rfl)
    | assignment name =>
      cases operand with
      | none => exact gives_throw _
      | some value => exact gives_bind (gives_any _) fun _ _ => gives_pure (next value rfl)
    | literal | computed | addition =>
      exact gives_bind (gives_any _) fun value _ => gives_pure trivial

/-- A turn removes one container. -/
theorem gives_turn (shaped : stack.Shaped) :
    Gives (Turn.Removes stack 1) (turn fallbacks scope line stack) := by
  obtain ⟨above, rest, rfl, ofOperands, isOpen⟩ := stack.exists_boundary
  have same : Turn.Removes (above ++ rest) 1 = Turn.Removes rest 1 := by
    funext result
    cases result with
    | done value => rfl
    | again later => rw [Turn.Removes, ofOperands.containers_append, Turn.Removes]
  rw [turn_append shaped ofOperands isOpen, same]
  exact gives_bind (gives_any _) fun operand _ =>
    gives_completeTop (shaped.waiting_of_append isOpen.ready) operand

/-- So many turns remove as many containers. -/
theorem gives_turns (count : Nat) (shaped : stack.Shaped) :
    Gives (Turn.Removes stack count) (turns fallbacks scope line count stack) := by
  induction count generalizing stack with
  | zero => exact gives_pure ⟨shaped, rfl⟩
  | succ count ih =>
    refine gives_bind (gives_turn shaped) fun result once => ?_
    cases result with
    | done value => exact gives_pure trivial
    | again next =>
      obtain ⟨still, fewer⟩ := once
      intro before after result runs
      have others := ih still before after result runs
      cases result with
      | done value => trivial
      | again rest =>
        obtain ⟨shapedRest, counted⟩ := others
        exact ⟨shapedRest, by omega⟩

/-- The line is done after one turn for each container and one more. -/
theorem turns_eq_closeLine (fallbacks : Fallbacks σ) (shaped : stack.Shaped) {count : Nat}
    (containers : stack.containers = count) :
    turns fallbacks scope line (count + 1) stack = Turn.done <$> closeLine scope line stack := by
  induction count generalizing stack with
  | zero =>
    rw [turns, closeLine_eq_turn fallbacks shaped, map_bind]
    refine bind_congr_of_gives (gives_turn shaped) fun result once => ?_
    cases result with
    | done value => simp [Turn.resume]
    | again rest =>
      have fewer := once.2
      omega
  | succ count ih =>
    rw [turns, closeLine_eq_turn fallbacks shaped, map_bind]
    refine bind_congr_of_gives (gives_turn shaped) fun result once => ?_
    cases result with
    | done value => simp [Turn.resume]
    | again rest =>
      obtain ⟨still, fewer⟩ := once
      exact ih still (by omega)

/-- However tokens are shifted onto an empty stack, some of them perhaps refused, at most one
operand is pending, on top, and no sum is right above another one.  So a bracket never comes to an
empty stack or to something other than a call; and the end of a line never meets an operand or a sum
in the place of what waits for it, removes one container at each turn, and is done when none is
left.  What would be done otherwise makes no difference. -/
theorem fallbacks_unreached {scope : Scope σ} {state : σ} {stack : Stack}
    (reached : Reached scope state stack) (line : Nat) :
    ((∀ frame ∈ stack.tail, frame.isOperand = false) ∧
      stack.IsChain fun upper lower => ¬ (upper.isAddition ∧ lower.isAddition)) ∧
    ((∀ other, closeOr (.standard line) scope line other = close scope line other) ∧
      ∀ fallbacks, closeOr fallbacks scope line stack = shift scope line .close stack) ∧
    (∀ fallbacks, turns fallbacks scope line (stack.containers + 1) stack =
      Turn.done <$> closeLine scope line stack) ∧
    ∀ fallbacks count,
      Gives (fun result => ∀ later, result = .again later →
          later.containers + count = stack.containers)
        (turns fallbacks scope line count stack) := by
  have shaped := reached.shaped
  refine ⟨⟨shaped.isOperand_tail, shaped.sums_apart⟩,
    ⟨closeOr_standard, fun fallbacks => closeOr_eq shaped⟩,
    fun fallbacks => turns_eq_closeLine fallbacks shaped rfl, fun fallbacks count => ?_⟩
  rintro before after _ runs later rfl
  exact (gives_turns count shaped before after _ runs).2

/-- Behind `x = new T("a" + "b"`, with `import U` refused there, a bracket completes the call, and
the end of the line is done after three turns. -/
theorem fallbacks_unreached_sum :
    let scope := idleScope.recording
    let stack : Stack :=
      [.literal "\"b\"", .addition (.str "a"), .construction "T" [], .assignment "x"]
    Reached scope ((), []) stack ∧ stack.containers = 2 ∧
      (∀ fallbacks, closeOr fallbacks scope 1 stack = shift scope 1 .close stack) ∧
      (∀ fallbacks, turns fallbacks scope 1 3 stack = Turn.done <$> closeLine scope 1 stack) ∧
      (closeLine scope 1 stack).run.run ((), []) =
        (.ok (some .null), ((), [.construct "T", .assign "x"])) := by
  intro scope stack
  have shifts : (shiftAll scope 1 [.assign "x", .new "T", .quoted "\"a\"", .plus, .quoted "\"b\""]
      []).run.run ((), []) = (.ok stack, ((), [])) := rfl
  have refused : (shift scope 1 (.importType "U") stack).run.run ((), []) =
      (.error (.parse (.unexpectedToken "import U" 1)), ((), [])) := rfl
  have reached : Reached scope ((), []) stack :=
    .refuse (.shiftAll (.empty _) shifts) refused List.suffix_rfl
  obtain ⟨-, ⟨-, closes⟩, ends, -⟩ := fallbacks_unreached reached 1
  exact ⟨reached, rfl, closes, ends, rfl⟩

end Reducer

end Colloquy
