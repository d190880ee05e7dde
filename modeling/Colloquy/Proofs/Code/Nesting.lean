import Colloquy.Proofs.Code.Recording
import Colloquy.Proofs.Code.Reduction

/-!
# Openings and their completion

A token that opens a call, a construction or an assignment is completed exactly once if its line is
reduced without an error, and the last opening is completed first, however the line is written.
The openings that still wait for their completion are those on the stack, the innermost first.
-/

namespace Colloquy

/-- The effect that a frame waits for. -/
def Frame.deed? : Frame → Option Deed
  | .call operation _ _ => some (.call operation)
  | .construction typeName _ => some (.construct typeName)
  | .assignment name => some (.assign name)
  | _ => none

/-- The effect makes a value. -/
def Deed.isInvocation : Deed → Bool
  | .call _ | .construct _ => true
  | _ => false

/-- The effects that a stack waits for, the next one first. -/
def Stack.pending (stack : Stack) : List Deed := stack.filterMap Frame.deed?

@[simp]
theorem Frame.deed?_pushArg (frame : Frame) (arg : Value) :
    (frame.pushArg arg).deed? = frame.deed? := by
  cases frame <;> rfl

namespace Reducer

variable {σ α : Type}

theorem pending_cons {frame : Frame} {deed : Deed} (waits : frame.deed? = some deed)
    (rest : Stack) : Stack.pending (frame :: rest) = deed :: rest.pending :=
  List.filterMap_cons_some waits

theorem pending_cons_none {frame : Frame} (idle : frame.deed? = none) (rest : Stack) :
    Stack.pending (frame :: rest) = rest.pending :=
  List.filterMap_cons_none idle

theorem pending_takeOperand (lookup : String → Option Value) (stack : Stack) :
    (takeOperand lookup stack).2.pending = stack.pending := by
  unfold takeOperand
  split
  · exact (pending_cons_none rfl _).symm
  · exact (pending_cons_none rfl _).symm
  · rfl

theorem pending_fold {heap : Heap} {line : Nat} {right sum : Value} {stack rest : Stack}
    (folds : fold heap line right stack = .ok (sum, rest)) : rest.pending = stack.pending := by
  fun_induction fold heap line right stack with
  | case1 right left below total adds ih =>
    rw [pending_cons_none rfl]
    exact ih folds
  | case2 => cases folds
  | case3 =>
    cases folds
    rfl

theorem pending_pushText {line : Nat} {text : String} {stack after : Stack}
    (pushes : pushText line text stack = .ok after) : after.pending = stack.pending := by
  unfold pushText at pushes
  split at pushes
  · cases pushes
    rfl
  · cases pushes
  · cases pushes
    rfl

theorem pending_pushSpace (text : String) (stack : Stack) :
    (pushSpace text stack).pending = stack.pending := by
  unfold pushSpace
  split
  · rfl
  · rfl
  · rfl

theorem pending_expectNoOperand {token : String} {line : Nat} {stack after : Stack}
    (free : expectNoOperand token line stack = .ok after) : after.pending = stack.pending := by
  unfold expectNoOperand at free
  split at free
  · split at free
    · cases free
      rfl
    · cases free
  · cases free
  · cases free
    rfl

theorem pending_expectIdle {token : String} {line : Nat} {stack after : Stack}
    (idle : expectIdle token line stack = .ok after) :
    after = [] ∧ stack.pending = [] := by
  unfold expectIdle at idle
  cases free : expectNoOperand token line stack with
  | error error =>
    rw [free] at idle
    cases idle
  | ok rest =>
    have same := pending_expectNoOperand free
    rw [free] at idle
    cases rest with
    | nil =>
      cases idle
      exact ⟨rfl, same.symm⟩
    | cons frame rest => cases idle

theorem logs_finishOperand (scope : Scope σ) (line : Nat) (stack : Stack) :
    Logs (finishOperand scope line stack) (finishOperand scope.recording line stack)
      fun result added => added = [] ∧ result.2.pending = stack.pending := by
  refine logs_get fun state log => ?_
  have taken := pending_takeOperand (scope.lookup state) stack
  simp only [Scope.lookup_recording, Scope.heap_recording]
  cases outcome : takeOperand (scope.lookup state) stack with
  | mk operand rest =>
    rw [outcome] at taken
    cases operand with
    | some value =>
      refine logs_lift_bind fun result folds => ?_
      exact logs_pure ⟨rfl, (pending_fold folds).trans taken⟩
    | none =>
      dsimp only
      split
      · exact logs_throw _
      · exact logs_pure ⟨rfl, taken⟩

/-- A call that is completed runs the effect of its frame, once. -/
theorem logs_invoke (scope : Scope σ) (line : Nat) (frame : Frame) :
    Logs (invoke scope line frame) (invoke scope.recording line frame)
      fun _ added => ∃ deed, frame.deed? = some deed ∧ deed.isInvocation ∧ added = [deed] := by
  cases frame with
  | call operation receiver args =>
    refine (logs_onLine line (.call operation) _).mono fun _ added once => ?_
    exact ⟨.call operation, rfl, rfl, once⟩
  | construction typeName args =>
    refine (logs_onLine line (.construct typeName) _).mono fun _ added once => ?_
    exact ⟨.construct typeName, rfl, rfl, once⟩
  | literal | computed | assignment | addition => exact logs_throw _

/-- What is pending is completed, innermost first, and nothing is left. -/
theorem logs_settle (scope : Scope σ) (line : Nat) (operand : Option Value) (stack : Stack) :
    Logs (settle scope line operand stack) (settle scope.recording line operand stack)
      fun _ added => added = stack.pending := by
  induction stack generalizing operand with
  | nil => exact logs_pure rfl
  | cons frame rest ih =>
    have invoked (waiting : Frame) (same : waiting.deed? = frame.deed?) :
        Logs (invoke scope line waiting >>= fun value => settle scope line (some value) rest)
          (invoke scope.recording line waiting >>= fun value =>
            settle scope.recording line (some value) rest)
          fun _ added => added = Stack.pending (frame :: rest) := by
      refine (logs_invoke scope line waiting).bind ?_
      rintro value added ⟨deed, waits, -, rfl⟩
      refine (ih (some value)).mono fun _ later settled => ?_
      rw [settled, pending_cons (same.symm.trans waits)]
      rfl
    cases frame with
    | assignment name =>
      cases operand with
      | none => exact logs_throw _
      | some value =>
        refine (logs_assign scope name value).bind ?_
        rintro - added rfl
        refine (ih (some value)).mono fun _ later settled => ?_
        rw [settled]
        rfl
    | addition left =>
      cases operand with
      | none => exact logs_throw _
      | some right =>
        refine logs_get fun state log => ?_
        simp only [Scope.heap_recording]
        cases left.add (scope.heap state) right with
        | error error => exact logs_throw _
        | ok sum => exact ih (some sum)
    | call operation receiver args =>
      refine invoked _ ?_
      cases operand <;> rfl
    | construction typeName args =>
      refine invoked _ ?_
      cases operand <;> rfl
    | literal text =>
      refine invoked _ ?_
      cases operand <;> rfl
    | computed value =>
      refine invoked _ ?_
      cases operand <;> rfl

theorem logs_closeLine (scope : Scope σ) (line : Nat) (stack : Stack) :
    Logs (closeLine scope line stack) (closeLine scope.recording line stack)
      fun _ added => added = stack.pending := by
  refine logs_get fun state log => ?_
  refine (logs_settle scope line _ _).mono fun _ added settled => ?_
  rw [settled]
  exact pending_takeOperand _ _

/-- What a token does to the pending openings: the openings before it, the effects that it runs,
and the openings after it.  An import and a declaration take effect at once, a closing bracket
completes the last opening if that is a call or a construction, and the end of a line completes all
of them, the last one first. -/
inductive Completes : Token → List Deed → List Deed → List Deed → Prop
  | opens {token : Token} {deed : Deed} (pending : List Deed)
      (opening : token.opening? = some deed) : Completes token pending [] (deed :: pending)
  | atOnce {token : Token} {deed : Deed} (statement : token.statement? = some deed) :
      Completes token [] [deed] []
  | closes {deed : Deed} (pending : List Deed) (invokes : deed.isInvocation) :
      Completes .close (deed :: pending) [deed] pending
  | ends (pending : List Deed) : Completes .newLine pending pending []
  | passes {token : Token} (pending : List Deed) (asksNothing : token.deed? = none)
      (inLine : token ≠ .newLine) : Completes token pending [] pending

theorem logs_plus (scope : Scope σ) (line : Nat) (stack : Stack) :
    Logs (plus scope line stack) (plus scope.recording line stack)
      fun after added => added = [] ∧ after.pending = stack.pending := by
  refine logs_get fun state log => ?_
  have taken := pending_takeOperand (scope.lookup state) stack
  simp only [Scope.lookup_recording, Scope.heap_recording]
  cases outcome : takeOperand (scope.lookup state) stack with
  | mk operand rest =>
    rw [outcome] at taken
    cases operand with
    | none => exact logs_lift fun after pushes => ⟨rfl, (pending_pushText pushes).trans taken⟩
    | some value =>
      refine logs_lift_bind fun result folds => ?_
      exact logs_pure ⟨rfl, (pending_fold folds).trans taken⟩

theorem logs_comma (scope : Scope σ) (line : Nat) (stack : Stack) :
    Logs (comma scope line stack) (comma scope.recording line stack)
      fun after added => added = [] ∧ after.pending = stack.pending := by
  unfold comma
  split
  · refine (logs_finishOperand scope line stack).bind ?_
    rintro ⟨operand, rest⟩ added ⟨rfl, same⟩
    cases operand with
    | none => exact logs_throw _
    | some arg =>
      cases rest with
      | nil => exact logs_pure ⟨rfl, same⟩
      | cons frame rest =>
        refine logs_pure ⟨rfl, ?_⟩
        rw [← same, Stack.pending, Stack.pending, List.filterMap_cons, List.filterMap_cons,
          Frame.deed?_pushArg]
  · exact logs_lift fun after pushes => ⟨rfl, pending_pushText pushes⟩

theorem logs_close (scope : Scope σ) (line : Nat) (stack : Stack) :
    Logs (close scope line stack) (close scope.recording line stack)
      fun after added => Completes .close stack.pending added after.pending := by
  have passes {after : Stack} (same : after.pending = stack.pending) :
      Completes .close stack.pending [] after.pending := by
    rw [same]
    exact .passes _ rfl (by simp)
  unfold close
  split
  · refine (logs_finishOperand scope line stack).bind ?_
    rintro ⟨operand, rest⟩ added ⟨rfl, same⟩
    cases rest with
    | nil => cases operand <;> exact logs_pure (passes same)
    | cons frame rest =>
      have completed (waiting : Frame) (alike : waiting.deed? = frame.deed?) :
          Logs (invoke scope line waiting >>= fun value => pure (.computed value :: rest))
            (invoke scope.recording line waiting >>= fun value => pure (.computed value :: rest))
            fun (after : Stack) added =>
              Completes .close stack.pending ([] ++ added) after.pending := by
        refine (logs_invoke scope line waiting).bind ?_
        rintro value added ⟨deed, waits, invokes, rfl⟩
        refine logs_pure ?_
        rw [← same, pending_cons (alike.symm.trans waits)]
        exact .closes _ invokes
      cases operand with
      | some arg => exact completed _ (frame.deed?_pushArg arg)
      | none =>
        dsimp only
        split
        · exact completed _ rfl
        · exact logs_throw _
  · exact logs_lift fun after pushes => passes (pending_pushText pushes)

/-- Shifting a token does to the pending openings what the token calls for. -/
theorem logs_shift (scope : Scope σ) (line : Nat) (token : Token) (stack : Stack) :
    Logs (shift scope line token stack) (shift scope.recording line token stack)
      fun after added => Completes token stack.pending added after.pending := by
  have passes {after : Stack} {token : Token} (asksNothing : token.deed? = none)
      (inLine : token ≠ .newLine) (same : after.pending = stack.pending) :
      Completes token stack.pending [] after.pending := by
    rw [same]
    exact .passes _ asksNothing inLine
  have texts {text : String} {token : Token} (asksNothing : token.deed? = none)
      (inLine : token ≠ .newLine) :
      Logs (liftM (pushText line text stack) : Step σ Stack) (liftM (pushText line text stack))
        fun (after : Stack) added => Completes token stack.pending added after.pending :=
    logs_lift fun after pushes => passes asksNothing inLine (pending_pushText pushes)
  cases token with
  | word text => exact texts rfl (by simp)
  | char text => exact texts rfl (by simp)
  | quoted text => exact texts rfl (by simp)
  | space text => exact logs_pure (passes rfl (by simp) (pending_pushSpace text stack))
  | plus =>
    refine (logs_plus scope line stack).mono ?_
    rintro after added ⟨rfl, same⟩
    exact passes rfl (by simp) same
  | comma =>
    refine (logs_comma scope line stack).mono ?_
    rintro after added ⟨rfl, same⟩
    exact passes rfl (by simp) same
  | close => exact logs_close scope line stack
  | assign name =>
    refine logs_lift_bind fun rest free => logs_pure ?_
    rw [← pending_expectNoOperand free, pending_cons rfl]
    exact .opens _ rfl
  | new typeName =>
    refine logs_lift_bind fun rest free => logs_pure ?_
    rw [← pending_expectNoOperand free, pending_cons rfl]
    exact .opens _ rfl
  | call operation =>
    refine logs_get fun state log => ?_
    have taken := pending_takeOperand (scope.lookup state) stack
    simp only [Scope.lookup_recording]
    cases outcome : takeOperand (scope.lookup state) stack with
    | mk operand rest =>
      rw [outcome] at taken
      cases operand with
      | none => exact logs_throw _
      | some receiver =>
        refine logs_pure ?_
        rw [← taken, pending_cons rfl]
        exact .opens _ rfl
  | importType typeName =>
    refine logs_lift_bind fun rest idle => ?_
    obtain ⟨rfl, none⟩ := pending_expectIdle idle
    refine (logs_onLine line (.importType typeName) _).bind ?_
    rintro - added rfl
    refine logs_pure ?_
    rw [none]
    exact .atOnce rfl
  | declaration declaration =>
    refine logs_lift_bind fun rest idle => ?_
    obtain ⟨rfl, none⟩ := pending_expectIdle idle
    refine (logs_onLine line (.declare declaration) _).bind ?_
    rintro - added rfl
    refine logs_pure ?_
    rw [none]
    exact .atOnce rfl
  | newLine =>
    refine (logs_closeLine scope line stack).bind ?_
    rintro value added rfl
    refine logs_pure ?_
    rw [List.append_nil]
    exact .ends _

/-- Tokens complete openings one after another: the openings before them, the effects that they
run, and the openings after them. -/
inductive Nests : List Deed → List Token → List Deed → List Deed → Prop
  | nil (pending : List Deed) : Nests pending [] [] pending
  | cons {token : Token} {tokens : List Token} {before middle after now later : List Deed}
      (first : Completes token before now middle) (rest : Nests middle tokens later after) :
      Nests before (token :: tokens) (now ++ later) after

theorem logs_shiftAll (scope : Scope σ) (line : Nat) (tokens : List Token) (stack : Stack) :
    Logs (shiftAll scope line tokens stack) (shiftAll scope.recording line tokens stack)
      fun after added => Nests stack.pending tokens added after.pending := by
  induction tokens generalizing stack with
  | nil => exact logs_pure (.nil _)
  | cons token tokens ih =>
    refine (logs_shift scope line token stack).bind fun middle now completes => ?_
    exact (ih middle).mono fun after later nests => .cons completes nests

/-- What a token adds to the openings is what it asks for, less what it completes. -/
theorem Completes.perm {token : Token} {before log after : List Deed}
    (completes : Completes token before log after) :
    (before ++ token.deed?.toList).Perm (log ++ after) := by
  cases completes with
  | opens pending opening =>
    rw [Token.deed?, opening]
    exact List.perm_append_singleton _ _
  | atOnce statement =>
    have none : token.opening? = none := by
      cases token <;> first | rfl | cases statement
    rw [Token.deed?, none, statement]
    exact .refl _
  | closes pending invokes =>
    have nothing : Token.close.deed?.toList = [] := rfl
    rw [nothing, List.append_nil]
    exact .refl _
  | ends pending => exact .refl _
  | passes pending asksNothing inLine =>
    rw [asksNothing]
    simp

/-- Every opening is completed once or still pending. -/
theorem Nests.perm {before after log : List Deed} {tokens : List Token}
    (nests : Nests before tokens log after) :
    (before ++ tokens.filterMap Token.deed?).Perm (log ++ after) := by
  induction nests with
  | nil pending => simp
  | @cons token tokens before middle after now later first rest ih =>
    have deeds : (token :: tokens).filterMap Token.deed? =
        token.deed?.toList ++ tokens.filterMap Token.deed? := by
      cases asks : token.deed? <;> simp [asks]
    have step := first.perm.append_right (tokens.filterMap Token.deed?)
    have run := ih.append_left now
    rw [List.append_assoc, List.append_assoc] at step
    rw [deeds, List.append_assoc]
    exact step.trans run

theorem Nests.append {before middle after now later : List Deed} {tokens rest : List Token}
    (first : Nests before tokens now middle) (second : Nests middle rest later after) :
    Nests before (tokens ++ rest) (now ++ later) after := by
  induction first with
  | nil => exact second
  | cons completes _ ih =>
    rw [List.append_assoc]
    exact .cons completes (ih second)

theorem logs_reduceLine (scope : Scope σ) (line : Nat) (tokens : List Token) :
    Logs (reduceLine scope line tokens) (reduceLine scope.recording line tokens)
      fun _ added => Nests [] (tokens ++ [.newLine]) added [] := by
  refine (logs_shiftAll scope line tokens []).bind fun stack now nests => ?_
  refine (logs_closeLine scope line stack).mono ?_
  rintro value later rfl
  have ending := Nests.cons (.ends stack.pending) (.nil [])
  rw [List.append_nil] at ending
  exact nests.append ending

/-- The end of a line leaves an empty stack. -/
theorem shiftAll_newLine (scope : Scope σ) (line : Nat) (tokens : List Token) :
    shiftAll scope line (tokens ++ [.newLine]) [] =
      reduceLine scope line tokens >>= fun _ => pure [] := by
  rw [shiftAll_append, reduceLine, bind_assoc]
  congr 1
  funext stack
  rw [shiftAll_singleton]
  rfl

/-- However a line is written, if it is reduced without an error, then every opening in it was
completed exactly once and under its own name, the last opening first, and nothing is left. -/
theorem completes_reduceLine (scope : Scope σ) (line : Nat) (tokens : List Token) {state after : σ}
    {value : Option Value}
    (reduces : (reduceLine scope line tokens).run.run state = (.ok value, after)) :
    ∃ log, (reduceLine scope.recording line tokens).run.run (state, []) =
        (.ok value, (after, log)) ∧
      Nests [] (tokens ++ [.newLine]) log [] ∧
      log.Perm (tokens.filterMap Token.deed?) ∧
      (shiftAll scope line (tokens ++ [.newLine]) []).run.run state = (.ok [], after) := by
  obtain ⟨log, same, nested⟩ := logs_reduceLine scope line tokens state []
  rw [reduces, List.nil_append] at same
  rw [reduces] at nested
  have nests := nested value rfl
  have perm := nests.perm
  rw [List.nil_append, List.append_nil, List.filterMap_append] at perm
  refine ⟨log, same, nests, ?_, ?_⟩
  · simpa [Token.deed?, Token.opening?, Token.statement?] using perm.symm
  · rw [shiftAll_newLine, ExceptT.run_bind, StateT.run_bind, reduces]
    rfl

/-- A scope whose effects do nothing. -/
def idleScope : Scope Unit where
  heap _ := {}
  lookup _ _ := none
  assign _ _ := return ()
  importType _ := return ()
  declare _ := return ()
  construct _ _ := return .null
  call _ _ _ := return .null

/-- The line `x = new T().f(new U(`: the bracket completes `new T`, and the end of the line
completes the other three from the last one to the first. -/
theorem completes_unclosed_call :
    let tokens : List Token := [.assign "x", .new "T", .close, .call "f", .new "U"]
    (reduceLine idleScope 1 tokens).run.run () = (.ok (some .null), ()) ∧
      ((reduceLine idleScope.recording 1 tokens).run.run ((), [])).2.2 =
        [.construct "T", .construct "U", .call "f", .assign "x"] ∧
      ∃ log, (reduceLine idleScope.recording 1 tokens).run.run ((), []) =
          (.ok (some .null), ((), log)) ∧
        Nests [] (tokens ++ [.newLine]) log [] ∧
        log.Perm (tokens.filterMap Token.deed?) ∧
        (shiftAll idleScope 1 (tokens ++ [.newLine]) []).run.run () = (.ok [], ()) :=
  ⟨rfl, rfl, completes_reduceLine idleScope 1 _ rfl⟩

end Reducer

end Colloquy
