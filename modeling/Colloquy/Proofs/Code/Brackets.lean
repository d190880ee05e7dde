import Colloquy.Proofs.Code.Location
import Colloquy.Proofs.Code.Shape

/-!
# Brackets and commas

A closing bracket completes the innermost open call, and a comma ends an argument of it, unless an
assignment waits above that call: what is assigned reaches to the end of the line, and so a bracket
or a comma in it is text.
-/

namespace Colloquy

/-- The frame waits for the value of a variable. -/
def Frame.isAssignment : Frame → Bool
  | assignment _ => true
  | _ => false

theorem Frame.isAddition_iff {frame : Frame} :
    frame.isAddition ↔ ∃ left, frame = .addition left := by
  cases frame <;> simp [Frame.isAddition]

/-- The innermost call of a stack, with what is pending above it and below. -/
structure Stack.Innermost (stack above : Stack) (call : Frame) (below : Stack) : Prop where
  /-- The call parts the stack. -/
  parts : stack = above ++ call :: below
  /-- It is a call. -/
  isCall : call.isCall
  /-- No call is further in. -/
  noCall : ∀ frame ∈ above, frame.isCall = false

theorem Stack.exists_innermost (stack : Stack) (opened : ∃ frame ∈ stack, frame.isCall) :
    ∃ above call below, stack.Innermost above call below := by
  obtain ⟨call, found⟩ := Option.isSome_iff_exists.1 (List.find?_isSome.2 opened)
  obtain ⟨isCall, above, below, parts, others⟩ := List.find?_eq_some_iff_append.1 found
  exact ⟨above, call, below, parts, isCall, by simpa using others⟩

namespace Reducer

variable {σ α β : Type}

/-- Steps that do the same in every state are the same. -/
theorem step_ext {first second : Step σ α}
    (same : ∀ state, first.run.run state = second.run.run state) : first = second :=
  ExceptT.ext (StateT.ext same)

/-- Operands and sums only. -/
def OfOperands (above : Stack) : Prop :=
  ∀ frame ∈ above, frame.isOperand ∨ frame.isAddition

theorem OfOperands.of_noContainer {above : Stack} (noCall : ∀ frame ∈ above, frame.isCall = false)
    (noAssignment : ∀ frame ∈ above, frame.isAssignment = false) : OfOperands above := by
  intro frame member
  have noCall := noCall frame member
  have noAssignment := noAssignment frame member
  cases frame with
  | literal | computed => exact .inl rfl
  | addition => exact .inr rfl
  | call | construction => cases noCall
  | assignment => cases noAssignment

theorem inCall_append {above : Stack} (ofOperands : OfOperands above) (rest : Stack) :
    inCall (above ++ rest) = inCall rest := by
  have skipped : above.find? (fun frame => !frame.isOperand && !frame.isAddition) = none := by
    refine List.find?_eq_none.2 fun frame member => ?_
    rcases ofOperands frame member with operand | sum
    · simp [operand]
    · simp [sum]
  rw [inCall, List.find?_append, skipped, Option.none_or]
  rfl

/-- Within an assignment no bracket belongs to a call. -/
theorem inCall_of_isAssignment {above : Stack} (noCall : ∀ frame ∈ above, frame.isCall = false)
    (assigned : ∃ frame ∈ above, frame.isAssignment) (rest : Stack) :
    inCall (above ++ rest) = false := by
  have stops : (above.find? fun frame => !frame.isOperand && !frame.isAddition).isSome := by
    obtain ⟨frame, member, isAssignment⟩ := assigned
    refine List.find?_isSome.2 ⟨frame, member, ?_⟩
    cases frame <;> first | rfl | cases isAssignment
  obtain ⟨frame, found⟩ := Option.isSome_iff_exists.1 stops
  rw [inCall, List.find?_append, found, Option.some_or]
  exact noCall frame (List.mem_of_find?_eq_some found)

/-- Where a bracket belongs to a call, that is the innermost one. -/
theorem innermost_of_inCall {stack : Stack} (within : inCall stack) :
    ∃ above call below, stack.Innermost above call below ∧
      ∀ frame ∈ above, frame.isAssignment = false := by
  unfold inCall at within
  split at within
  · rename_i call found
    obtain ⟨-, above, below, parts, others⟩ := List.find?_eq_some_iff_append.1 found
    have apart (frame : Frame) (member : frame ∈ above) :
        frame.isCall = false ∧ frame.isAssignment = false := by
      have skipped := others frame member
      cases frame <;> first | exact ⟨rfl, rfl⟩ | cases skipped
    exact ⟨above, call, below, ⟨parts, within, fun frame member => (apart frame member).1⟩,
      fun frame member => (apart frame member).2⟩
  · cases within

/-- Blanks are no operand. -/
theorem takeOperand_indented {rest start : Stack} (ready : Ready rest)
    (indented : Indented rest start) (lookup : String → Option Value) :
    takeOperand lookup start = (none, rest) := by
  cases indented with
  | bare =>
    cases rest with
    | nil => rfl
    | cons frame rest =>
      have waits : frame.isOperand = false := ready frame rfl
      cases frame <;> first | rfl | cases waits
  | blank isBlank => simp [takeOperand, Literal.resolve, Text.trim_eq_nil_iff.2 isBlank]

theorem takeOperand_append {rest : Stack} (ready : Ready rest) (above : Stack)
    (lookup : String → Option Value) :
    takeOperand lookup (above ++ rest) =
      ((takeOperand lookup above).1, (takeOperand lookup above).2 ++ rest) := by
  cases above with
  | nil =>
    rw [List.nil_append, takeOperand_indented ready .bare]
    rfl
  | cons frame above => cases frame <;> rfl

/-- What waits above is completed before what waits below. -/
theorem settle_append (scope : Scope σ) (line : Nat) (operand : Option Value)
    (above below : Stack) :
    settle scope line operand (above ++ below) =
      settle scope line operand above >>= fun value => settle scope line value below := by
  induction above generalizing operand with
  | nil => simp [settle]
  | cons frame above ih =>
    rw [List.cons_append]
    cases frame with
    | addition left =>
      cases operand with
      | none => rfl
      | some right =>
        simp only [settle_addition, ih, bind_assoc]
    | assignment name =>
      cases operand with
      | none => rfl
      | some value => simp only [settle, ih, bind_assoc]
    | call | construction | literal | computed => simp only [settle, ih, bind_assoc]

theorem closeLine_append (scope : Scope σ) (line : Nat) {below : Stack} (ready : Ready below)
    (above : Stack) :
    closeLine scope line (above ++ below) =
      closeLine scope line above >>= fun value => settle scope line value below := by
  simp only [closeLine, takeOperand_append ready, settle_append, bind_assoc]

theorem fold_append {sums rest : Stack} (areSums : ∀ frame ∈ sums, frame.isAddition)
    (isOpen : Open rest) (heap : Heap) (line : Nat) (right : Value) :
    fold heap line right (sums ++ rest) =
      (fold heap line right sums).map fun result => (result.1, rest) := by
  induction sums generalizing right with
  | nil => exact fold_open isOpen heap line right
  | cons frame sums ih =>
    obtain ⟨isSum, others⟩ := List.forall_mem_cons.1 areSums
    obtain ⟨left, rfl⟩ := Frame.isAddition_iff.1 isSum
    rw [List.cons_append, fold, fold]
    cases left.add heap right with
    | ok total => exact ih others total
    | error error => rfl

/-- Sums above the end of a line are added up, which leaves the state as it is. -/
theorem settle_sums (scope : Scope σ) (line : Nat) {sums : Stack}
    (areSums : ∀ frame ∈ sums, frame.isAddition) (right : Value) (state : σ) :
    (settle scope line (some right) sums).run.run state =
      ((fold (scope.heap state) line right sums).map fun result => some result.1, state) := by
  induction sums generalizing right with
  | nil => rfl
  | cons frame sums ih =>
    obtain ⟨isSum, others⟩ := List.forall_mem_cons.1 areSums
    obtain ⟨left, rfl⟩ := Frame.isAddition_iff.1 isSum
    simp only [settle, fold, run_get_bind]
    cases left.add (scope.heap state) right with
    | ok total => exact ih others total
    | error error => rfl

theorem sums_of_shaped {above rest : Stack} (shaped : Stack.Shaped (above ++ rest))
    (ofOperands : OfOperands above) (lookup : String → Option Value) :
    ∀ frame ∈ (takeOperand lookup above).2, frame.isAddition := by
  cases above with
  | nil => exact List.forall_mem_nil _
  | cons top above =>
    obtain ⟨first, others⟩ := List.forall_mem_cons.1 ofOperands
    have waiting : ∀ frame ∈ above, frame.isAddition := fun frame member =>
      (others frame member).resolve_left
        (by simp [shaped.tail.operands frame (List.mem_append_left _ member)])
    cases top with
    | literal | computed => exact waiting
    | addition left => exact List.forall_mem_cons.2 ⟨rfl, waiting⟩
    | call | construction | assignment => simp [Frame.isOperand, Frame.isAddition] at first

/-- The value of operands and sums: nothing where nothing but blanks is pending, and no sum may lack
its right operand. -/
def operandValue (heap : Heap) (lookup : String → Option Value) (line : Nat) (above : Stack) :
    Except Error (Option Value) :=
  match takeOperand lookup above with
  | (some value, sums) => (fold heap line value sums).map fun result => some result.1
  | (none, []) => .ok none
  | (none, _ :: _) => .error (.parse (.missingValue line))

/-- On a line of their own, operands and sums have their value, and the state stays as it is. -/
theorem closeLine_operands (scope : Scope σ) (line : Nat) {above rest : Stack}
    (shaped : Stack.Shaped (above ++ rest)) (ofOperands : OfOperands above) (state : σ) :
    (closeLine scope line above).run.run state =
      (operandValue (scope.heap state) (scope.lookup state) line above, state) := by
  have areSums := sums_of_shaped shaped ofOperands (scope.lookup state)
  rw [closeLine, run_get_bind, operandValue]
  cases taken : takeOperand (scope.lookup state) above with
  | mk operand sums =>
    rw [taken] at areSums
    cases operand with
    | some value => exact settle_sums scope line areSums value state
    | none =>
      cases sums with
      | nil => rfl
      | cons frame sums =>
        obtain ⟨left, rfl⟩ := Frame.isAddition_iff.1 (areSums frame (.head _))
        rfl

theorem run_finishOperand (scope : Scope σ) (line : Nat) {above rest : Stack}
    (shaped : Stack.Shaped (above ++ rest)) (ofOperands : OfOperands above) (isOpen : Open rest)
    (state : σ) :
    (finishOperand scope line (above ++ rest)).run.run state =
      ((operandValue (scope.heap state) (scope.lookup state) line above).map (·, rest), state) := by
  have areSums := sums_of_shaped shaped ofOperands (scope.lookup state)
  rw [finishOperand, run_get_bind, takeOperand_append isOpen.ready, operandValue]
  cases taken : takeOperand (scope.lookup state) above with
  | mk operand sums =>
    rw [taken] at areSums
    cases operand with
    | some value =>
      simp only [fold_append areSums isOpen]
      cases fold (scope.heap state) line value sums <;> rfl
    | none =>
      cases sums with
      | nil =>
        have noSum : rest.head?.elim false Frame.isAddition = false := by
          cases rest with
          | nil => rfl
          | cons frame below => exact (isOpen frame rfl).2
        simp only [List.nil_append, noSum]
        rfl
      | cons frame sums =>
        obtain ⟨left, rfl⟩ := Frame.isAddition_iff.1 (areSums frame (.head _))
        rfl

/-- What is pending above a part that waits is its operand: the value that it has as a line of its
own. -/
theorem finishOperand_append (scope : Scope σ) (line : Nat) {above rest : Stack}
    (shaped : Stack.Shaped (above ++ rest)) (ofOperands : OfOperands above) (isOpen : Open rest) :
    finishOperand scope line (above ++ rest) =
      closeLine scope line above >>= fun arg => pure (arg, rest) := by
  refine step_ext fun state => ?_
  have closed := closeLine_operands scope line shaped ofOperands state
  rw [run_finishOperand scope line shaped ofOperands isOpen]
  cases value : operandValue (scope.heap state) (scope.lookup state) line above with
  | ok arg =>
    rw [value] at closed
    rw [run_bind_of_ok closed]
    rfl
  | error error =>
    rw [value] at closed
    rw [run_bind_of_error closed]
    rfl

/-- Completes a call with its last argument.  Behind a comma there must be one. -/
def complete (scope : Scope σ) (line : Nat) (call : Frame) : Option Value → Step σ Value
  | some arg => invoke scope line (call.pushArg arg)
  | none =>
    if call.args.isEmpty then invoke scope line call else throw (.parse (.emptyArgument line))

section Innermost

variable (scope : Scope σ) (line : Nat) {stack above below : Stack} {call : Frame}

/-- Within the innermost call the operand is what waits above the call, completed as if the line
ended. -/
theorem finishOperand_innermost (shaped : stack.Shaped)
    (innermost : stack.Innermost above call below)
    (noAssignment : ∀ frame ∈ above, frame.isAssignment = false) :
    inCall stack ∧ finishOperand scope line stack =
      closeLine scope line above >>= fun arg => pure (arg, call :: below) := by
  obtain ⟨rfl, isCall, noCall⟩ := innermost
  have ofOperands := OfOperands.of_noContainer noCall noAssignment
  exact ⟨by rw [inCall_append ofOperands, inCall_of_isCall isCall below],
    finishOperand_append scope line shaped ofOperands (open_of_isCall isCall below)⟩

theorem close_innermost (shaped : stack.Shaped) (innermost : stack.Innermost above call below)
    (noAssignment : ∀ frame ∈ above, frame.isAssignment = false) :
    close scope line stack = do
      let arg ← closeLine scope line above
      let value ← complete scope line call arg
      return .computed value :: below := by
  obtain ⟨within, finished⟩ :=
    finishOperand_innermost scope line shaped innermost noAssignment
  rw [close, if_pos within, finished, bind_assoc]
  congr 1
  funext arg
  rw [pure_bind]
  cases arg with
  | some arg => rfl
  | none =>
    dsimp only [complete]
    split
    · rfl
    · rfl

theorem comma_innermost (shaped : stack.Shaped) (innermost : stack.Innermost above call below)
    (noAssignment : ∀ frame ∈ above, frame.isAssignment = false) :
    comma scope line stack = do
      let some arg ← closeLine scope line above | throw (.parse (.emptyArgument line))
      return call.pushArg arg :: below := by
  obtain ⟨within, finished⟩ :=
    finishOperand_innermost scope line shaped innermost noAssignment
  rw [comma, if_pos within, finished, bind_assoc]
  congr 1
  funext arg
  rw [pure_bind]
  cases arg with
  | some arg => rfl
  | none => rfl

/-- Within an assignment a bracket and a comma are text. -/
theorem text_of_isAssignment (innermost : stack.Innermost above call below)
    (assigned : ∃ frame ∈ above, frame.isAssignment) :
    shift scope line .close stack = shift scope line (.char ")") stack ∧
      shift scope line .comma stack = shift scope line (.char ",") stack := by
  obtain ⟨rfl, isCall, noCall⟩ := innermost
  have outside := inCall_of_isAssignment noCall assigned (call :: below)
  constructor
  · change close scope line _ = _
    rw [close, outside]
    rfl
  · change comma scope line _ = _
    rw [comma, outside]
    rfl

/-- However the tokens before it are written, a closing bracket completes the innermost call that is
open, and no other, and a comma ends an argument of that call, if no assignment waits above it.
Within an assignment both are text. -/
theorem bracket_innermost {tokens : List Token} {state now : σ}
    (shifts : (shiftAll scope line tokens []).run.run state = (.ok stack, now))
    (opened : ∃ frame ∈ stack, frame.isCall) :
    ∃ above call below, stack.Innermost above call below ∧
      ((∀ frame ∈ above, frame.isAssignment = false) →
        (∀ state, ∃ arg, (closeLine scope line above).run.run state = (arg, state)) ∧
        (shift scope line .close stack = do
          let arg ← closeLine scope line above
          let value ← complete scope line call arg
          return .computed value :: below) ∧
        shift scope line .comma stack = do
          let some arg ← closeLine scope line above | throw (.parse (.emptyArgument line))
          return call.pushArg arg :: below) ∧
      ((∃ frame ∈ above, frame.isAssignment) →
        shift scope line .close stack = shift scope line (.char ")") stack ∧
        shift scope line .comma stack = shift scope line (.char ",") stack) := by
  have shaped := shaped_of_shifts scope line shifts
  obtain ⟨above, call, below, innermost⟩ := stack.exists_innermost opened
  refine ⟨above, call, below, innermost, fun noAssignment => ⟨fun state => ?_, ?_, ?_⟩, ?_⟩
  · rw [innermost.parts] at shaped
    have ofOperands := OfOperands.of_noContainer innermost.noCall noAssignment
    exact ⟨_, closeLine_operands scope line shaped ofOperands state⟩
  · exact close_innermost scope line shaped innermost noAssignment
  · exact comma_innermost scope line shaped innermost noAssignment
  · exact text_of_isAssignment scope line innermost

/-- Behind `x = new T(new U(new V()` a bracket completes `new U`; `new T` and the assignment go on
waiting. -/
theorem bracket_innermost_nested :
    let stack : Stack :=
      [.computed .null, .construction "U" [], .construction "T" [], .assignment "x"]
    (shiftAll idleScope 1 [.assign "x", .new "T", .new "U", .new "V", .close] []).run.run () =
        (.ok stack, ()) ∧
      (∃ frame ∈ stack, frame.isCall) ∧
      (shift idleScope.recording 1 .close stack).run.run ((), []) =
        (.ok [.computed .null, .construction "T" [], .assignment "x"], ((), [.construct "U"])) ∧
      ∃ above call below, stack.Innermost above call below ∧
        ((∀ frame ∈ above, frame.isAssignment = false) →
          (∀ state, ∃ arg, (closeLine idleScope 1 above).run.run state = (arg, state)) ∧
          (shift idleScope 1 .close stack = do
            let arg ← closeLine idleScope 1 above
            let value ← complete idleScope 1 call arg
            return .computed value :: below) ∧
          shift idleScope 1 .comma stack = do
            let some arg ← closeLine idleScope 1 above | throw (.parse (.emptyArgument 1))
            return call.pushArg arg :: below) ∧
        ((∃ frame ∈ above, frame.isAssignment) →
          shift idleScope 1 .close stack = shift idleScope 1 (.char ")") stack ∧
          shift idleScope 1 .comma stack = shift idleScope 1 (.char ",") stack) := by
  intro stack
  have shifts : (shiftAll idleScope 1
      [.assign "x", .new "T", .new "U", .new "V", .close] []).run.run () = (.ok stack, ()) := rfl
  have opened : ∃ frame ∈ stack, frame.isCall := ⟨_, .tail _ (.head _), rfl⟩
  exact ⟨shifts, opened, rfl, bracket_innermost idleScope 1 shifts opened⟩

/-- Behind `new T(x = 1` neither a bracket nor a comma does anything to the open call: both become
text of what is assigned. -/
theorem bracket_in_assignment :
    let tokens : List Token := [.new "T", .assign "x", .word "1"]
    let above : Stack := [.literal "1", .assignment "x"]
    (shiftAll idleScope 1 tokens []).run.run () = (.ok (above ++ [.construction "T" []]), ()) ∧
      Stack.Innermost (above ++ [.construction "T" []]) above (.construction "T" []) [] ∧
      (shiftAll idleScope.recording 1 (tokens ++ [.close]) []).run.run ((), []) =
        (.ok [.literal "1)", .assignment "x", .construction "T" []], ((), [])) ∧
      (shiftAll idleScope.recording 1 (tokens ++ [.comma]) []).run.run ((), []) =
        (.ok [.literal "1,", .assignment "x", .construction "T" []], ((), [])) :=
  ⟨rfl, ⟨rfl, rfl, by decide⟩, rfl, rfl⟩

end Innermost

end Reducer

end Colloquy
