import Colloquy.Proofs.Code.Brackets

/-!
# The end of a line in place of brackets

The end of a line completes the calls that are still open as their missing brackets would, with one
exception: behind a comma a bracket asks for another argument, and the end of a line does not.
-/

namespace Colloquy

namespace Stack

/-- The number of calls that wait for their brackets. -/
def openCalls (stack : Stack) : Nat := stack.countP Frame.isCall

/-- No assignment waits above a call. -/
def Unassigned (stack : Stack) : Prop :=
  stack.Pairwise fun upper lower => upper.isAssignment → lower.isCall = false

/-- The innermost call waits for another argument behind a comma, and only blanks are there. -/
def Dangling (stack : Stack) : Prop :=
  ∃ above call below, stack.Innermost above call below ∧ Reducer.Indented [] above ∧
    call.args ≠ []

variable {stack above below : Stack} {call : Frame}

theorem Innermost.openCalls_eq (innermost : stack.Innermost above call below) :
    stack.openCalls = below.openCalls + 1 := by
  obtain ⟨rfl, isCall, noCall⟩ := innermost
  have none : above.countP Frame.isCall = 0 := List.countP_eq_zero.2 (by simpa using noCall)
  rw [openCalls, List.countP_append, none, Nat.zero_add, List.countP_cons_of_pos isCall]
  rfl

theorem Innermost.noAssignment (innermost : stack.Innermost above call below)
    (unassigned : stack.Unassigned) : ∀ frame ∈ above, frame.isAssignment = false := by
  obtain ⟨rfl, isCall, -⟩ := innermost
  intro frame member
  have apart := (List.pairwise_append.1 unassigned).2.2 frame member call (.head _)
  by_contra assigns
  rw [apart (by simpa using assigns)] at isCall
  cases isCall

/-- Below the innermost call no assignment waits above a call either. -/
theorem Innermost.unassigned_below (innermost : stack.Innermost above call below)
    (unassigned : stack.Unassigned) (value : Value) :
    Unassigned (.computed value :: below) := by
  obtain ⟨rfl, -, -⟩ := innermost
  refine List.Pairwise.cons (fun lower _ (assigns : false = true) => nomatch assigns) ?_
  exact (List.pairwise_append.1 unassigned).2.1.tail

theorem Innermost.shaped_below (innermost : stack.Innermost above call below)
    (shaped : stack.Shaped) (value : Value) : Shaped (.computed value :: below) := by
  obtain ⟨rfl, -, -⟩ := innermost
  refine .pending rfl ?_
  cases above with
  | nil => exact shaped.tail
  | cons first above => exact shaped.tail.of_append.tail

theorem not_dangling_computed (value : Value) (rest : Stack) :
    ¬ Dangling (.computed value :: rest) := by
  rintro ⟨above, call, below, ⟨parts, isCall, -⟩, blank, -⟩
  cases blank with
  | bare =>
    cases parts
    cases isCall
  | blank => cases parts

end Stack

namespace Reducer

variable {σ α β : Type} (scope : Scope σ) (line : Nat) {stack above below : Stack} {call : Frame}

theorem indented_of_takeOperand {lookup : String → Option Value} {rest start : Stack}
    (nothing : takeOperand lookup start = (none, rest)) : Indented rest start := by
  unfold takeOperand at nothing
  split at nothing
  · rename_i text below
    obtain ⟨unresolved, rfl⟩ := Prod.mk.inj nothing
    cases blank : Text.allBlank text.toList with
    | true => exact .blank blank
    | false => simpa [unresolved] using Literal.resolve_isSome blank lookup
  · cases nothing
  · cases nothing
    exact .bare

/-- Only where nothing is pending there is no value. -/
theorem gives_settle (operand : Option Value) (stack : Stack) :
    Gives (fun result => result = none → operand = none ∧ stack = [])
      (settle scope line operand stack) := by
  induction stack generalizing operand with
  | nil => exact gives_pure fun isNone => ⟨isNone, rfl⟩
  | cons frame rest ih =>
    have later (value : Value) :
        Gives (fun result => result = none → operand = none ∧ frame :: rest = [])
          (settle scope line (some value) rest) :=
      fun before after result settles isNone =>
        absurd (ih (some value) before after result settles isNone).1 (Option.some_ne_none value)
    have invoked (waiting : Frame) :
        Gives (fun result => result = none → operand = none ∧ frame :: rest = [])
          (invoke scope line waiting >>= fun value => settle scope line (some value) rest) :=
      gives_bind (gives_any _) fun value _ => later value
    cases frame with
    | addition left =>
      cases operand with
      | none => exact gives_throw _
      | some right =>
        rw [settle_addition]
        exact gives_bind (gives_any _) fun total _ => later total
    | assignment name =>
      cases operand with
      | none => exact gives_throw _
      | some value => exact gives_bind (gives_any _) fun _ _ => later value
    | call | construction | literal | computed => exact invoked _

/-- Only a line of blanks has no value. -/
theorem gives_closeLine (stack : Stack) :
    Gives (fun result => result = none → Indented [] stack) (closeLine scope line stack) := by
  refine gives_get fun state before after result settles isNone => ?_
  cases taken : takeOperand (scope.lookup state) stack with
  | mk operand rest =>
    rw [taken] at settles
    obtain ⟨rfl, rfl⟩ := gives_settle scope line operand rest before after result settles isNone
    exact indented_of_takeOperand taken

/-- The end of a line completes the innermost call first, and goes on with its value. -/
theorem closeLine_innermost (innermost : stack.Innermost above call below) :
    closeLine scope line stack = (do
      let arg ← closeLine scope line above
      let value ← invoke scope line (arg.elim call call.pushArg)
      closeLine scope line (.computed value :: below)) := by
  obtain ⟨rfl, isCall, -⟩ := innermost
  rw [closeLine_append scope line (open_of_isCall isCall below).ready]
  congr 1
  funext arg
  cases call with
  | call | construction => rfl
  | literal | computed | assignment | addition => cases isCall

/-- What follows a step matters only for the results that the step gives. -/
theorem bind_congr_of_gives {good : α → Prop} {step : Step σ α} {first second : α → Step σ β}
    (gives : Gives good step) (same : ∀ result, good result → first result = second result) :
    step >>= first = step >>= second := by
  refine step_ext fun state => ?_
  cases outcome : step.run.run state with
  | mk result after =>
    cases result with
    | ok result =>
      rw [run_bind_of_ok outcome, run_bind_of_ok outcome, same result (gives _ _ _ outcome)]
    | error error => rw [run_bind_of_error outcome, run_bind_of_error outcome]

/-- If no call waits behind a comma, the end of a line does what the missing brackets do before
it. -/
theorem closeLine_eq_brackets {count : Nat} (shaped : stack.Shaped)
    (unassigned : stack.Unassigned) (finished : ¬ stack.Dangling)
    (calls : stack.openCalls = count) :
    closeLine scope line stack =
      shiftAll scope line (List.replicate count .close) stack >>= closeLine scope line := by
  -- both sides complete the innermost call first, and then its value stands in its place
  induction count generalizing stack with
  | zero => rw [List.replicate_zero, shiftAll, pure_bind]
  | succ count ih =>
    have opened : ∃ frame ∈ stack, frame.isCall := by
      refine List.countP_pos_iff.1 ?_
      rw [← Stack.openCalls, calls]
      exact Nat.succ_pos count
    obtain ⟨above, call, below, innermost⟩ := Stack.exists_innermost stack opened
    have noAssignment := innermost.noAssignment unassigned
    have fewer : below.openCalls = count := by
      have parted := innermost.openCalls_eq
      omega
    have later (value : Value) : closeLine scope line (.computed value :: below) =
        shiftAll scope line (List.replicate count .close) (.computed value :: below) >>=
          closeLine scope line :=
      ih (innermost.shaped_below shaped value) (innermost.unassigned_below unassigned value)
        (Stack.not_dangling_computed value below) fewer
    have bracket : shift scope line .close stack = _ :=
      close_innermost scope line shaped innermost noAssignment
    rw [List.replicate_succ, shiftAll, bracket, closeLine_innermost scope line innermost]
    simp only [bind_assoc, pure_bind, ← later]
    refine bind_congr_of_gives (gives_closeLine scope line above) fun arg blank => ?_
    cases arg with
    | some arg => rfl
    | none =>
      have noArgs : call.args = [] := by
        by_contra another
        exact finished ⟨above, call, below, innermost, blank rfl, another⟩
      simp [complete, noArgs]

/-- The step never fails with this error. -/
def Avoids (error : Error) (step : Step σ α) : Prop :=
  ∀ state after, step.run.run state ≠ (.error error, after)

section Avoiding

variable {error : Error}

theorem avoids_pure (value : α) : Avoids error (pure value : Step σ α) := by
  rintro state after ⟨⟩

theorem avoids_throw {other : Error} (apart : other ≠ error) :
    Avoids error (throw other : Step σ α) := by
  rintro state after ⟨⟩
  exact apart rfl

theorem Avoids.bind {step : Step σ α} {next : α → Step σ β} (first : Avoids error step)
    (second : ∀ value, Avoids error (next value)) : Avoids error (step >>= next) := by
  intro state after fails
  cases outcome : step.run.run state with
  | mk result middle =>
    cases result with
    | ok value =>
      rw [run_bind_of_ok outcome] at fails
      exact second value middle after fails
    | error other =>
      rw [run_bind_of_error outcome] at fails
      cases fails
      exact first state _ outcome

theorem avoids_onLine (cause : ParseError) (effect : Effect σ α) :
    Avoids (.parse cause) (onLine line effect) := by
  intro state after fails
  change Prod.map (Except.mapError (Error.runtime line)) id (effect.run.run state) = _ at fails
  cases outcome : effect.run.run state with
  | mk result middle =>
    rw [outcome] at fails
    cases result <;> cases fails

end Avoiding

theorem avoids_invoke (frame : Frame) :
    Avoids (.parse (.emptyArgument line)) (invoke scope line frame) := by
  cases frame with
  | call | construction => exact avoids_onLine line _ _
  | literal | computed | assignment | addition => exact avoids_throw (by simp)

/-- The end of a line never misses an argument. -/
theorem avoids_settle (operand : Option Value) (stack : Stack) :
    Avoids (.parse (.emptyArgument line)) (settle scope line operand stack) := by
  induction stack generalizing operand with
  | nil => exact avoids_pure _
  | cons frame rest ih =>
    cases frame with
    | addition left =>
      cases operand with
      | none => exact avoids_throw (by simp)
      | some right =>
        intro state after
        simp only [settle, run_get_bind]
        cases left.add (scope.heap state) right with
        | ok total => exact ih (some total) state after
        | error error => exact avoids_throw (by simp) state after
    | assignment name =>
      cases operand with
      | none => exact avoids_throw (by simp)
      | some value => exact fun state => ih (some value) (scope.assign name value state).2
    | call | construction | literal | computed =>
      exact (avoids_invoke scope line _).bind fun value => ih (some value)

theorem closeLine_indented {above : Stack} (blank : Indented [] above) :
    closeLine scope line above = pure none := by
  have nothing (lookup : String → Option Value) : takeOperand lookup above = (none, []) :=
    takeOperand_indented (by rintro _ ⟨⟩) blank lookup
  simp only [closeLine, nothing]
  rfl

/-- Behind a comma a bracket misses an argument. -/
theorem close_dangling (shaped : stack.Shaped) (unassigned : stack.Unassigned)
    (innermost : stack.Innermost above call below) (blank : Indented [] above)
    (another : call.args ≠ []) :
    close scope line stack = throw (.parse (.emptyArgument line)) := by
  have noAssignment := innermost.noAssignment unassigned
  rw [close_innermost scope line shaped innermost noAssignment, closeLine_indented scope line blank,
    pure_bind, complete, if_neg (by simpa using another)]
  rfl

/-- However a line is written, if no assignment waits above a call, then the end of the line does
what the missing brackets do before it, unless a call waits for another argument behind a comma:
there the first bracket is an error, and the end of the line completes the call without it. -/
theorem closeLine_eq_brackets_iff {tokens : List Token} {state now : σ}
    (shifts : (shiftAll scope line tokens []).run.run state = (.ok stack, now))
    (unassigned : stack.Unassigned) :
    (closeLine scope line stack).run.run now =
        (shiftAll scope line (List.replicate stack.openCalls .close) stack >>=
          closeLine scope line).run.run now ↔
      ¬ stack.Dangling := by
  have shaped := shaped_of_shifts scope line shifts
  constructor
  · rintro same ⟨above, call, below, innermost, blank, another⟩
    have fails : shift scope line .close stack = _ :=
      close_dangling scope line shaped unassigned innermost blank another
    rw [innermost.openCalls_eq, List.replicate_succ, shiftAll, fails] at same
    exact avoids_settle scope line _ _ _ _ same
  · intro finished
    rw [← closeLine_eq_brackets scope line shaped unassigned finished rfl]

/-- The line `x = new T(new U(` ends as `x = new T(new U())` does. -/
theorem closeLine_eq_brackets_nested :
    let stack : Stack := [.construction "U" [], .construction "T" [], .assignment "x"]
    (shiftAll idleScope.recording 1 [.assign "x", .new "T", .new "U"] []).run.run ((), []) =
        (.ok stack, ((), [])) ∧
      stack.Unassigned ∧
      (closeLine idleScope.recording 1 stack).run.run ((), []) =
        (.ok (some .null), ((), [.construct "U", .construct "T", .assign "x"])) ∧
      ((closeLine idleScope.recording 1 stack).run.run ((), []) =
          (shiftAll idleScope.recording 1 (List.replicate stack.openCalls .close) stack >>=
            closeLine idleScope.recording 1).run.run ((), []) ↔
        ¬ stack.Dangling) := by
  intro stack
  have shifts : (shiftAll idleScope.recording 1 [.assign "x", .new "T", .new "U"] []).run.run
      ((), []) = (.ok stack, ((), [])) := rfl
  have unassigned : stack.Unassigned := by
    simp [stack, Stack.Unassigned, Frame.isAssignment]
  exact ⟨shifts, unassigned, rfl, closeLine_eq_brackets_iff idleScope.recording 1 shifts unassigned⟩

/-- The line `new T(new U(),` ends with the call of `new T`, where its missing bracket is an
error. -/
theorem closeLine_dangling :
    let stack : Stack := [.construction "T" [.null]]
    (shiftAll idleScope.recording 1 [.new "T", .new "U", .close, .comma] []).run.run ((), []) =
        (.ok stack, ((), [.construct "U"])) ∧
      stack.Unassigned ∧
      (closeLine idleScope.recording 1 stack).run.run ((), [.construct "U"]) =
        (.ok (some .null), ((), [.construct "U", .construct "T"])) ∧
      (shiftAll idleScope.recording 1 (List.replicate stack.openCalls .close) stack >>=
          closeLine idleScope.recording 1).run.run ((), [.construct "U"]) =
        (.error (.parse (.emptyArgument 1)), ((), [.construct "U"])) :=
  ⟨rfl, List.pairwise_singleton _ _, rfl, rfl⟩

end Reducer

end Colloquy
