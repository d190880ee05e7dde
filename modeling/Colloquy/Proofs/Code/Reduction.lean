import Colloquy.Proofs.Code.Expression
import Colloquy.Session

/-!
# Reduction of written expressions

Shifting the tokens of a written line and completing it is the direct evaluation of its tree.  The
induction is on the tree, with whatever follows the tokens of a subtree as a parameter: a
continuation that takes the pending operand gets the value of the subtree.
-/

namespace Colloquy

namespace Reducer

variable {σ α β : Type}

/-- Shifts tokens one after another. -/
def shiftAll (scope : Scope σ) (line : Nat) : List Token → Stack → Step σ Stack
  | [], stack => return stack
  | token :: rest, stack => do
    let stack ← shift scope line token stack
    shiftAll scope line rest stack

/-- Shifts the tokens of a line onto an empty stack and completes what is pending. -/
def reduceLine (scope : Scope σ) (line : Nat) (tokens : List Token) : Step σ (Option Value) := do
  let stack ← shiftAll scope line tokens []
  closeLine scope line stack

theorem shiftAll_append (scope : Scope σ) (line : Nat) (front back : List Token) (stack : Stack) :
    shiftAll scope line (front ++ back) stack =
      shiftAll scope line front stack >>= shiftAll scope line back := by
  induction front generalizing stack with
  | nil => simp [shiftAll]
  | cons token front ih => simp [shiftAll, ih]

theorem shiftAll_singleton (scope : Scope σ) (line : Nat) (token : Token) (stack : Stack) :
    shiftAll scope line [token] stack = shift scope line token stack := by
  simp [shiftAll]

end Reducer

namespace Frame

variable {σ : Type}

/-- The frame holds an operand that has a value. -/
def Solid : Frame → Prop
  | literal text => Text.allBlank text.toList = false
  | computed _ => True
  | _ => False

/-- The value of an operand, given the values of variables. -/
def valueIn (lookup : String → Option Value) : Frame → Value
  | literal text => (Literal.resolve lookup text).getD .null
  | computed value => value
  | _ => .null

/-- The value of an operand at the moment. -/
def read (scope : Scope σ) (frame : Frame) : Reducer.Step σ Value :=
  return frame.valueIn (scope.lookup (← get))

theorem Solid.isOperand {frame : Frame} (solid : frame.Solid) : frame.isOperand := by
  cases frame <;> first | rfl | exact solid.elim

end Frame

namespace Reducer

variable {σ α β : Type}

theorem get_bind_get (next : σ → σ → Step σ α) :
    (do let first ← get; let second ← get; next first second) =
      (do let state ← get; next state state) :=
  rfl

theorem liftM_ok (value : α) : (liftM (Except.ok value : Except Error α) : Step σ α) = pure value :=
  rfl

theorem takeOperand_solid {frame : Frame} (solid : frame.Solid) (lookup : String → Option Value)
    (rest : Stack) : takeOperand lookup (frame :: rest) = (some (frame.valueIn lookup), rest) := by
  cases frame with
  | literal text =>
    obtain ⟨value, found⟩ := Option.isSome_iff_exists.1 (Literal.resolve_isSome solid lookup)
    simp [takeOperand, Frame.valueIn, found]
  | computed value => rfl
  | call | construction | assignment | addition => exact solid.elim

/-- The continuation takes the operand on top of a stack and goes on with its value. -/
def Takes (scope : Scope σ) (rest : Stack) (next : Stack → Step σ α)
    (resume : Value → Step σ α) : Prop :=
  ∀ frame : Frame, frame.Solid → next (frame :: rest) = frame.read scope >>= resume

/-- The continuation takes the operand on top of a stack, adds it to a sum that waits for it, and
goes on with the total. -/
structure Finishes (scope : Scope σ) (line : Nat) (rest : Stack) (next : Stack → Step σ α)
    (resume : Value → Step σ α) : Prop where
  /-- Without a sum the value of the operand is the total. -/
  alone : Takes scope rest next resume
  /-- A sum waits for its right operand. -/
  added (left : Value) : Takes scope (.addition left :: rest) next fun right => do
    let total ← sumOf scope line left right
    resume total

theorem Takes.bind {scope : Scope σ} {rest : Stack} {next : Stack → Step σ α}
    {resume : Value → Step σ α} (takes : Takes scope rest next resume) (last : α → Step σ β) :
    Takes scope rest (fun stack => next stack >>= last) (fun value => resume value >>= last) := by
  intro frame solid
  change next (frame :: rest) >>= last = _
  rw [takes frame solid, bind_assoc]

theorem Finishes.bind {scope : Scope σ} {line : Nat} {rest : Stack} {next : Stack → Step σ α}
    {resume : Value → Step σ α} (finishes : Finishes scope line rest next resume)
    (last : α → Step σ β) :
    Finishes scope line rest (fun stack => next stack >>= last)
      (fun value => resume value >>= last) where
  alone := finishes.alone.bind last
  added left := by
    have taken := (finishes.added left).bind last
    simpa only [bind_assoc] using taken

theorem resolve_congr {raw other : String} (same : Text.trim raw.toList = Text.trim other.toList)
    (lookup : String → Option Value) :
    Literal.resolve lookup raw = Literal.resolve lookup other := by
  unfold Literal.resolve
  rw [same]

theorem shift_space (scope : Scope σ) (line : Nat) (text : String) (stack : Stack) :
    shift scope line (.space text) stack = pure (pushSpace text stack) :=
  rfl

/-- Blanks behind an operand do not change it. -/
theorem Takes.blanks {scope : Scope σ} {rest : Stack} {next : Stack → Step σ α}
    {resume : Value → Step σ α} (takes : Takes scope rest next resume) (line : Nat)
    {blanks : List Token} (areBlanks : Token.AreBlanks blanks) :
    Takes scope rest (fun stack => shiftAll scope line blanks stack >>= next) resume := by
  induction blanks with
  | nil =>
    intro frame solid
    simpa [shiftAll] using takes frame solid
  | cons token blanks ih =>
    intro frame solid
    obtain ⟨text, rfl, blank⟩ := areBlanks token (by simp)
    have later := ih fun token member => areBlanks token (by simp [member])
    simp only [shiftAll, shift_space, pure_bind]
    cases frame with
    | literal gathered =>
      have read_eq : (Frame.literal (gathered ++ text)).read scope =
          (Frame.literal gathered).read scope := by
        have same : Text.trim (gathered ++ text).toList = Text.trim gathered.toList := by
          simpa using Text.trim_append_of_allBlank blank gathered.toList
        simp only [Frame.read, Frame.valueIn, resolve_congr same]
      have still : (Frame.literal (gathered ++ text)).Solid := by
        have begun : Text.allBlank gathered.toList = false := solid
        simp [Frame.Solid, begun]
      rw [← read_eq]
      exact later (.literal (gathered ++ text)) still
    | computed value => exact later (.computed value) solid
    | call | construction | assignment | addition => exact solid.elim

/-- Nothing on the stack is an operand yet. -/
def Ready (stack : Stack) : Prop := ∀ frame ∈ stack.head?, frame.isOperand = false

/-- A stack on which nothing but blanks was put. -/
inductive Indented (rest : Stack) : Stack → Prop where
  | bare : Indented rest rest
  | blank {text : String} : Text.allBlank text.toList → Indented rest (.literal text :: rest)

theorem pushSpace_ready {rest : Stack} (ready : Ready rest) (text : String) :
    pushSpace text rest = .literal text :: rest := by
  cases rest with
  | nil => rfl
  | cons frame rest =>
    have waits : frame.isOperand = false := ready frame rfl
    cases frame <;> first | rfl | simp [Frame.isOperand] at waits

/-- Where no value is finished, text is put on the stack as blanks are. -/
theorem pushText_eq {stack : Stack} (unfinished : ∀ value rest, stack ≠ .computed value :: rest)
    (line : Nat) (text : String) : pushText line text stack = .ok (pushSpace text stack) := by
  cases stack with
  | nil => rfl
  | cons frame rest =>
    cases frame with
    | computed value => exact absurd rfl (unfinished value rest)
    | literal | call | construction | assignment | addition => rfl

theorem pushText_ready {rest : Stack} (ready : Ready rest) (line : Nat) (text : String) :
    pushText line text rest = .ok (.literal text :: rest) := by
  have unfinished (value : Value) (below : Stack) : rest ≠ .computed value :: below := by
    rintro rfl
    cases ready _ rfl
  rw [pushText_eq unfinished, pushSpace_ready ready]

theorem shiftAll_blanks (scope : Scope σ) (line : Nat) {rest : Stack} (ready : Ready rest)
    {start : Stack} (indented : Indented rest start) {blanks : List Token}
    (areBlanks : Token.AreBlanks blanks) :
    ∃ stack, Indented rest stack ∧ shiftAll scope line blanks start = pure stack := by
  induction blanks generalizing start with
  | nil => exact ⟨start, indented, rfl⟩
  | cons token blanks ih =>
    obtain ⟨text, rfl, blank⟩ := areBlanks token (by simp)
    have pushed : Indented rest (pushSpace text start) := by
      cases indented with
      | bare =>
        rw [pushSpace_ready ready]
        exact .blank blank
      | blank gathered => exact .blank (by simp [gathered, blank])
    obtain ⟨stack, reached, shifted⟩ :=
      ih pushed fun token member => areBlanks token (by simp [member])
    refine ⟨stack, reached, ?_⟩
    simpa [shiftAll, shift_space] using shifted

theorem shift_text (scope : Scope σ) (line : Nat) {token : Token} {text : String}
    (textual : token.text? = some text) (gathered : String) (rest : Stack) :
    shift scope line token (.literal gathered :: rest) =
      pure (.literal (gathered ++ text) :: rest) := by
  cases token <;> simp only [Token.text?, Option.some.injEq, reduceCtorEq] at textual <;>
    subst textual <;> rfl

theorem shift_text_ready (scope : Scope σ) (line : Nat) {token : Token} {text : String}
    (textual : token.text? = some text) {rest : Stack} (ready : Ready rest) :
    shift scope line token rest = pure (.literal text :: rest) := by
  cases token <;> simp only [Token.text?, Option.some.injEq, reduceCtorEq] at textual <;>
    subst textual <;>
    simp only [shift, pushText_ready ready, pushSpace_ready ready] <;> rfl

theorem shiftAll_text (scope : Scope σ) (line : Nat) {tokens : List Token}
    (textual : ∀ token ∈ tokens, token.text?.isSome) (gathered : String) (rest : Stack) :
    shiftAll scope line tokens (.literal gathered :: rest) =
      pure (.literal (gathered ++ Token.gathered tokens) :: rest) := by
  induction tokens generalizing gathered with
  | nil => simp [shiftAll, Token.gathered]
  | cons token tokens ih =>
    obtain ⟨text, found⟩ := Option.isSome_iff_exists.1 (textual token (by simp))
    have later := ih (fun other member => textual other (by simp [member])) (gathered ++ text)
    simp only [shiftAll, shift_text scope line found, pure_bind, later]
    simp [Token.gathered, found, String.append_assoc]

/-- An atom becomes a literal with the blanks before it. -/
theorem shiftAll_atom (scope : Scope σ) (line : Nat) (atom : Atom) {rest start : Stack}
    (ready : Ready rest) (indented : Indented rest start) :
    ∃ blank : String, Text.allBlank blank.toList ∧
      shiftAll scope line atom.tokens start = pure (.literal (blank ++ atom.text) :: rest) := by
  cases indented with
  | blank gathered =>
    exact ⟨_, gathered, shiftAll_text scope line atom.textual _ rest⟩
  | bare =>
    refine ⟨"", rfl, ?_⟩
    obtain ⟨tokens, textual, solid⟩ := atom
    cases tokens with
    | nil => simp [Token.gathered, Text.allBlank] at solid
    | cons token tokens =>
      obtain ⟨text, found⟩ := Option.isSome_iff_exists.1 (textual token (by simp))
      have others : ∀ other ∈ tokens, other.text?.isSome :=
        fun other member => textual other (by simp [member])
      have later := shiftAll_text scope line others text rest
      simp only [shiftAll, shift_text_ready scope line found ready, pure_bind, later]
      simp [Atom.text, Token.gathered, found]

theorem read_atom (scope : Scope σ) (atom : Atom) {blank : String}
    (isBlank : Text.allBlank blank.toList) :
    (Frame.literal (blank ++ atom.text)).read scope =
      (do return atom.value (scope.lookup (← get))) := by
  have same : Text.trim (blank ++ atom.text).toList = Text.trim atom.text.toList := by
    simpa using Text.trim_of_allBlank_append isBlank atom.text.toList
  simp only [Frame.read, Frame.valueIn, resolve_congr same, Atom.value_eq_getD]

/-- An expression may start here: neither an operand nor a sum is pending. -/
def Open (stack : Stack) : Prop :=
  ∀ frame ∈ stack.head?, frame.isOperand = false ∧ frame.isAddition = false

theorem Open.ready {stack : Stack} (isOpen : Open stack) : Ready stack :=
  fun frame member => (isOpen frame member).1

theorem ready_addition (left : Value) (rest : Stack) : Ready (.addition left :: rest) := by
  intro frame member
  cases member
  rfl

theorem fold_open {rest : Stack} (isOpen : Open rest) (heap : Heap) (line : Nat) (value : Value) :
    fold heap line value rest = .ok (value, rest) := by
  cases rest with
  | nil => rfl
  | cons frame rest =>
    have noSum : frame.isAddition = false := (isOpen frame rfl).2
    cases frame <;> first | rfl | simp [Frame.isAddition] at noSum

theorem fold_addition {rest : Stack} (isOpen : Open rest) (heap : Heap) (line : Nat)
    (left right : Value) :
    fold heap line right (.addition left :: rest) =
      match left.add heap right with
      | .ok total => .ok (total, rest)
      | .error error => .error (.runtime line error) := by
  rw [fold]
  cases left.add heap right with
  | ok total => exact fold_open isOpen heap line total
  | error error => rfl

theorem finishes_finishOperand {rest : Stack} (isOpen : Open rest) (scope : Scope σ)
    (line : Nat) :
    Finishes scope line rest (finishOperand scope line) fun total => pure (some total, rest) where
  alone := by
    intro frame solid
    simp only [finishOperand, takeOperand_solid solid, fold_open isOpen, liftM_ok, Frame.read,
      bind_assoc, pure_bind]
  added left := by
    intro frame solid
    simp only [finishOperand, takeOperand_solid solid, fold_addition isOpen, Frame.read, sumOf,
      bind_assoc, pure_bind, get_bind_get]
    congr 1
    funext state
    cases left.add (scope.heap state) (frame.valueIn (scope.lookup state)) <;> rfl

/-- A step that finishes the operand goes on from the total so far. -/
theorem finishes_then {rest : Stack} (isOpen : Open rest) (scope : Scope σ) (line : Nat)
    {step : Stack → Step σ Stack} {next : Option Value × Stack → Step σ Stack}
    (alone : ∀ frame : Frame, frame.Solid →
      step (frame :: rest) = finishOperand scope line (frame :: rest) >>= next)
    (added : ∀ (frame : Frame) (left : Value), frame.Solid →
      step (frame :: .addition left :: rest) =
        finishOperand scope line (frame :: .addition left :: rest) >>= next) :
    Finishes scope line rest step fun total => next (some total, rest) where
  alone := by
    intro frame solid
    rw [alone frame solid, (finishes_finishOperand isOpen scope line).alone frame solid]
    simp only [bind_assoc, pure_bind]
  added left := by
    intro frame solid
    rw [added frame left solid, (finishes_finishOperand isOpen scope line).added left frame solid]
    simp only [bind_assoc, pure_bind]

theorem plus_solid (scope : Scope σ) (line : Nat) {frame : Frame} (solid : frame.Solid)
    (rest : Stack) :
    plus scope line (frame :: rest) =
      finishOperand scope line (frame :: rest) >>= fun (total, rest) =>
        pure (total.elim rest fun total => .addition total :: rest) := by
  simp only [plus, finishOperand, takeOperand_solid solid, bind_assoc, pure_bind,
    Option.elim_some]

/-- A plus sign makes the total so far the left operand of a sum. -/
theorem finishes_plus {rest : Stack} (isOpen : Open rest) (scope : Scope σ) (line : Nat) :
    Finishes scope line rest (plus scope line) fun total => pure (.addition total :: rest) :=
  finishes_then isOpen scope line (fun _ solid => plus_solid scope line solid rest)
    fun _ _ solid => plus_solid scope line solid _

/-- A call takes the operand before it as its receiver. -/
theorem takes_call (scope : Scope σ) (line : Nat) (operation : String) (rest : Stack) :
    Takes scope rest (shift scope line (.call operation)) fun receiver =>
      pure (.call operation receiver [] :: rest) := by
  intro frame solid
  simp only [shift, takeOperand_solid solid, Frame.read, bind_assoc, pure_bind]

theorem open_of_isCall {frame : Frame} (isCall : frame.isCall) (rest : Stack) :
    Open (frame :: rest) := by
  intro first member
  cases member
  cases frame <;> first | exact ⟨rfl, rfl⟩ | simp [Frame.isCall] at isCall

theorem inCall_of_isCall {frame : Frame} (isCall : frame.isCall) (rest : Stack) :
    inCall (frame :: rest) := by
  cases frame <;> first | rfl | simp [Frame.isCall] at isCall

theorem inCall_operand {frame : Frame} (solid : frame.Solid) (rest : Stack) :
    inCall (frame :: rest) = inCall rest := by
  simp [inCall, solid.isOperand]

theorem inCall_addition (left : Value) (rest : Stack) :
    inCall (.addition left :: rest) = inCall rest := by
  simp [inCall, Frame.isOperand, Frame.isAddition]

/-- What completes an argument within a call goes on from the total so far. -/
theorem finishes_inCall {call : Frame} (isCall : call.isCall) (rest : Stack) (scope : Scope σ)
    (line : Nat) {step : Stack → Step σ Stack} {next : Option Value × Stack → Step σ Stack}
    (within : ∀ stack, inCall stack → step stack = finishOperand scope line stack >>= next) :
    Finishes scope line (call :: rest) step fun total => next (some total, call :: rest) :=
  finishes_then (open_of_isCall isCall rest) scope line
    (fun _ solid => within _ (by rw [inCall_operand solid, inCall_of_isCall isCall]))
    fun _ left solid =>
      within _ (by rw [inCall_operand solid, inCall_addition, inCall_of_isCall isCall])

/-- A comma makes the total so far one more argument of the innermost call. -/
theorem finishes_comma {call : Frame} (isCall : call.isCall) (rest : Stack) (scope : Scope σ)
    (line : Nat) :
    Finishes scope line (call :: rest) (comma scope line) fun arg =>
      pure (call.pushArg arg :: rest) := by
  have finishes := @finishes_inCall σ call isCall rest scope line (comma scope line) _
    fun stack within => if_pos within
  exact finishes

/-- A closing bracket makes the total so far the last argument of the innermost call. -/
theorem finishes_close {call : Frame} (isCall : call.isCall) (rest : Stack) (scope : Scope σ)
    (line : Nat) :
    Finishes scope line (call :: rest) (close scope line) (fun arg => do
      let value ← invoke scope line (call.pushArg arg)
      pure (.computed value :: rest)) := by
  have finishes := @finishes_inCall σ call isCall rest scope line (close scope line) _
    fun stack within => if_pos within
  exact finishes

/-- A bracket right behind the opening of a call completes it without arguments. -/
theorem close_empty {frame : Frame} (isCall : frame.isCall) (empty : frame.args = [])
    {rest start : Stack} (indented : Indented (frame :: rest) start) (scope : Scope σ)
    (line : Nat) :
    close scope line start = (do
      let value ← invoke scope line frame
      pure (.computed value :: rest)) := by
  have within : inCall start := by
    cases indented with
    | bare => exact inCall_of_isCall isCall rest
    | blank => simpa [inCall, Frame.isOperand] using inCall_of_isCall isCall rest
  have nothing (lookup : String → Option Value) :
      takeOperand lookup start = (none, frame :: rest) := by
    cases indented with
    | bare => cases frame <;> first | rfl | simp [Frame.isCall] at isCall
    | blank isBlank =>
      have unresolved := Text.trim_eq_nil_iff.2 isBlank
      simp [takeOperand, Literal.resolve, unresolved]
  have noSum : frame.isAddition = false := (open_of_isCall isCall rest frame rfl).2
  rw [close, if_pos within]
  simp only [finishOperand, nothing, List.head?_cons, Option.elim_some, noSum, bind_assoc,
    Bool.false_eq_true, if_false, pure_bind, empty, List.isEmpty_nil, if_true]
  rfl

theorem expectNoOperand_indented {rest start : Stack} (ready : Ready rest)
    (indented : Indented rest start) (token : String) (line : Nat) :
    expectNoOperand token line start = .ok rest := by
  cases indented with
  | bare =>
    cases rest with
    | nil => rfl
    | cons frame rest =>
      have waits : frame.isOperand = false := ready frame rfl
      cases frame <;> first | rfl | simp [Frame.isOperand] at waits
  | blank isBlank => simp [expectNoOperand, isBlank]

theorem shift_new (scope : Scope σ) (line : Nat) (typeName : String) {rest start : Stack}
    (ready : Ready rest) (indented : Indented rest start) :
    shift scope line (.new typeName) start = pure (.construction typeName [] :: rest) := by
  simp only [shift, expectNoOperand_indented ready indented, liftM_ok, pure_bind]

theorem shift_assign (scope : Scope σ) (line : Nat) (name : String) {rest start : Stack}
    (ready : Ready rest) (indented : Indented rest start) :
    shift scope line (.assign name) start = pure (.assignment name :: rest) := by
  simp only [shift, expectNoOperand_indented ready indented, liftM_ok, pure_bind]

/-! ## Trees -/

theorem Takes.computed {scope : Scope σ} {rest : Stack} {next : Stack → Step σ α}
    {resume : Value → Step σ α} (takes : Takes scope rest next resume) (value : Value) :
    next (.computed value :: rest) = resume value := by
  rw [takes (.computed value) trivial]
  rfl

theorem Finishes.blanks {scope : Scope σ} {line : Nat} {rest : Stack} {next : Stack → Step σ α}
    {resume : Value → Step σ α} (finishes : Finishes scope line rest next resume)
    {blanks : List Token} (areBlanks : Token.AreBlanks blanks) :
    Finishes scope line rest (fun stack => shiftAll scope line blanks stack >>= next) resume where
  alone := finishes.alone.blanks line areBlanks
  added left := (finishes.added left).blanks line areBlanks

end Reducer

theorem Spaced.cons_inv {stretch : List Token} {stretches : List (List Token)}
    {tokens : List Token} (spaced : Spaced (stretch :: stretches) tokens) :
    ∃ blanks later, tokens = blanks ++ (stretch ++ later) ∧ Token.AreBlanks blanks ∧
      Spaced stretches later := by
  cases spaced with
  | cons areBlanks later => exact ⟨_, _, rfl, areBlanks, later⟩

theorem Spaced.singleton_inv {stretch tokens : List Token} (spaced : Spaced [stretch] tokens) :
    ∃ blanks, tokens = blanks ++ stretch ∧ Token.AreBlanks blanks := by
  obtain ⟨blanks, later, rfl, areBlanks, nothing⟩ := spaced.cons_inv
  cases nothing
  exact ⟨blanks, by rw [List.append_nil], areBlanks⟩

theorem Spaced.append_inv {front back : List (List Token)} {tokens : List Token}
    (spaced : Spaced (front ++ back) tokens) :
    ∃ first second, tokens = first ++ second ∧ Spaced front first ∧ Spaced back second := by
  induction front generalizing tokens with
  | nil => exact ⟨[], tokens, rfl, .nil, spaced⟩
  | cons stretch front ih =>
    cases spaced with
    | cons areBlanks later =>
      obtain ⟨first, second, rfl, spacedFirst, spacedSecond⟩ := ih later
      exact ⟨_, second, by simp, .cons areBlanks spacedFirst, spacedSecond⟩

namespace Frame

/-- The frame with further arguments. -/
def pushArgs (frame : Frame) (args : List Value) : Frame :=
  args.foldl (fun frame arg => frame.pushArg arg) frame

theorem isCall_pushArg {frame : Frame} (isCall : frame.isCall) (arg : Value) :
    (frame.pushArg arg).isCall := by
  cases frame <;> first | rfl | simp [Frame.isCall] at isCall

theorem pushArgs_call (operation : String) (receiver : Value) (before args : List Value) :
    (call operation receiver before).pushArgs args = call operation receiver (before ++ args) := by
  induction args generalizing before with
  | nil => simp [pushArgs]
  | cons arg args ih => simpa [pushArgs, pushArg] using ih (before ++ [arg])

theorem pushArgs_construction (typeName : String) (before args : List Value) :
    (construction typeName before).pushArgs args = construction typeName (before ++ args) := by
  induction args generalizing before with
  | nil => simp [pushArgs]
  | cons arg args ih => simpa [pushArgs, pushArg] using ih (before ++ [arg])

end Frame

namespace Reducer

section Trees

variable {σ α : Type} {scope : Scope σ} {line : Nat}

mutual

/-- The tokens of a term, followed by whatever takes an operand, give it the value of the term. -/
theorem shift_term (term : Term) {rest : Stack} (ready : Ready rest) {tokens : List Token}
    (spaced : Spaced term.stretches tokens) {next : Stack → Step σ α} {resume : Value → Step σ α}
    (takes : Takes scope rest next resume) :
    shiftAll scope line tokens rest >>= next = term.eval scope line >>= resume := by
  match term with
  | .atom atom =>
    rw [Term.stretches] at spaced
    obtain ⟨blanks, rfl, areBlanks⟩ := spaced.singleton_inv
    obtain ⟨start, indented, shifted⟩ := shiftAll_blanks scope line ready .bare areBlanks
    obtain ⟨blank, isBlank, gathered⟩ := shiftAll_atom scope line atom ready indented
    have solid : (Frame.literal (blank ++ atom.text)).Solid := by
      have body : Text.allBlank atom.text.toList = false := atom.solid
      simp [Frame.Solid, body]
    rw [shiftAll_append, shifted, pure_bind, gathered, pure_bind,
      takes _ solid, read_atom scope atom isBlank, Term.eval]
  | .call receiver operation args =>
    rw [Term.stretches] at spaced
    obtain ⟨front, back, rfl, written, later⟩ := spaced.append_inv
    obtain ⟨blanks, tokens, rfl, areBlanks, arguments⟩ := later.cons_inv
    -- the opening of the call takes the receiver, whatever frames the receiver was computed on
    have opened := ((takes_call scope line operation rest).bind fun stack =>
      shiftAll scope line tokens stack >>= next).blanks line areBlanks
    rw [shiftAll_append, bind_assoc]
    simp only [shiftAll_append, shiftAll_singleton, bind_assoc]
    rw [shift_term receiver ready written opened, Term.eval]
    simp only [pure_bind, bind_assoc]
    congr 1
    funext value
    rw [shift_arguments args rfl rfl arguments takes]
    simp only [Frame.pushArgs_call, List.nil_append, invoke]
  | .new typeName args =>
    rw [Term.stretches] at spaced
    obtain ⟨blanks, tokens, rfl, areBlanks, arguments⟩ := spaced.cons_inv
    obtain ⟨start, indented, shifted⟩ := shiftAll_blanks scope line ready .bare areBlanks
    rw [shiftAll_append, shifted, pure_bind, shiftAll_append, shiftAll_singleton,
      shift_new scope line typeName ready indented, pure_bind,
      shift_arguments args rfl rfl arguments takes, Term.eval]
    simp only [Frame.pushArgs_construction, List.nil_append, invoke, bind_assoc]

/-- The tokens of an expression, followed by whatever finishes an operand, give it the value of the
expression. -/
theorem shift_expression (expression : Expression) {rest : Stack} (isOpen : Open rest)
    {tokens : List Token} (spaced : Spaced expression.stretches tokens)
    {next : Stack → Step σ α} {resume : Value → Step σ α}
    (finishes : Finishes scope line rest next resume) :
    shiftAll scope line tokens rest >>= next = expression.eval scope line >>= resume := by
  match expression with
  | .term term =>
    rw [Expression.stretches] at spaced
    rw [Expression.eval]
    exact shift_term term isOpen.ready spaced finishes.alone
  | .sum left right =>
    rw [Expression.stretches] at spaced
    obtain ⟨front, back, rfl, written, later⟩ := spaced.append_inv
    obtain ⟨blanks, tokens, rfl, areBlanks, writtenRight⟩ := later.cons_inv
    -- the plus finishes the left operand, so a sum on the left is folded before the right is read
    have added := ((finishes_plus isOpen scope line).bind fun stack =>
      shiftAll scope line tokens stack >>= next).blanks areBlanks
    rw [shiftAll_append, bind_assoc]
    simp only [shiftAll_append, shiftAll_singleton, shift, bind_assoc]
    rw [shift_expression left isOpen written added, Expression.eval]
    simp only [pure_bind, bind_assoc]
    congr 1
    funext value
    rw [shift_term right (ready_addition value rest) writtenRight (finishes.added value)]

/-- The tokens of an argument list complete the call that they belong to. -/
theorem shift_arguments (args : List Expression) {call : Frame} (isCall : call.isCall)
    (empty : call.args = []) {rest : Stack} {tokens : List Token}
    (spaced : Spaced (argumentStretches args) tokens) {next : Stack → Step σ α}
    {resume : Value → Step σ α} (takes : Takes scope rest next resume) :
    shiftAll scope line tokens (call :: rest) >>= next = (do
      let values ← evalArguments scope line args
      let value ← invoke scope line (call.pushArgs values)
      resume value) := by
  match args with
  | [] =>
    rw [argumentStretches] at spaced
    obtain ⟨blanks, rfl, areBlanks⟩ := spaced.singleton_inv
    have isOpen := open_of_isCall isCall rest
    obtain ⟨start, indented, shifted⟩ := shiftAll_blanks scope line isOpen.ready .bare areBlanks
    rw [shiftAll_append, shifted, pure_bind, shiftAll_singleton, shift,
      close_empty isCall empty indented, evalArguments]
    simp only [bind_assoc, pure_bind, takes.computed, Frame.pushArgs, List.foldl_nil]
  | arg :: args =>
    rw [argumentStretches] at spaced
    obtain ⟨front, back, rfl, written, later⟩ := spaced.append_inv
    have finishes := finishes_later args isCall rest later takes
    rw [shiftAll_append, bind_assoc, shift_expression arg (open_of_isCall isCall rest) written
      finishes, evalArguments]
    simp only [bind_assoc, pure_bind]

/-- The arguments behind the first one take the operand before them as that first argument. -/
theorem finishes_later (args : List Expression) {call : Frame} (isCall : call.isCall)
    (rest : Stack) {tokens : List Token} (spaced : Spaced (laterStretches args) tokens)
    {next : Stack → Step σ α} {resume : Value → Step σ α} (takes : Takes scope rest next resume) :
    Finishes scope line (call :: rest) (fun stack => shiftAll scope line tokens stack >>= next)
      (fun arg => do
        let values ← evalArguments scope line args
        let value ← invoke scope line (call.pushArgs (arg :: values))
        resume value) := by
  match args with
  | [] =>
    rw [laterStretches] at spaced
    obtain ⟨blanks, rfl, areBlanks⟩ := spaced.singleton_inv
    have closed := ((finishes_close isCall rest scope line).bind next).blanks areBlanks
    simp only [shiftAll_append, shiftAll_singleton, shift, bind_assoc]
    simpa only [bind_assoc, pure_bind, takes.computed, evalArguments, Frame.pushArgs,
      List.foldl_cons, List.foldl_nil] using closed
  | arg :: args =>
    rw [laterStretches] at spaced
    obtain ⟨blanks, tokens, rfl, areBlanks, later⟩ := spaced.cons_inv
    obtain ⟨front, back, tokens_eq, written, remaining⟩ := later.append_inv
    -- the comma pushes the first argument, and the rest are the arguments of the grown call
    have argument (first : Value) :
        shiftAll scope line tokens (call.pushArg first :: rest) >>= next = (do
          let values ← evalArguments scope line (arg :: args)
          let value ← invoke scope line (call.pushArgs (first :: values))
          resume value) := by
      have stillCall := Frame.isCall_pushArg isCall first
      rw [tokens_eq, shiftAll_append, bind_assoc,
        shift_expression arg (open_of_isCall stillCall rest) written
          (finishes_later args stillCall rest remaining takes), evalArguments]
      simp only [bind_assoc, pure_bind, Frame.pushArgs, List.foldl_cons]
    have separated := ((finishes_comma isCall rest scope line).bind fun stack =>
      shiftAll scope line tokens stack >>= next).blanks areBlanks
    simp only [pure_bind, argument] at separated
    simpa only [shiftAll_append, shiftAll_singleton, shift, bind_assoc] using separated

end

end Trees

/-! ## Lines -/

section Lines

variable {σ : Type} (scope : Scope σ) (line : Nat)

theorem open_assignments (names : List String) : Open (names.map Frame.assignment) := by
  cases names with
  | nil =>
    intro frame member
    cases member
  | cons name names =>
    intro frame member
    cases member
    exact ⟨rfl, rfl⟩

/-- The assignments at the start of a line wait in reverse order. -/
theorem shift_names {names : List String} (before : List String) {tokens : List Token}
    (spaced : Spaced (names.map fun name => [.assign name]) tokens) :
    shiftAll scope line tokens (before.map Frame.assignment) =
      pure ((names.reverse ++ before).map Frame.assignment) := by
  induction names generalizing before tokens with
  | nil =>
    cases spaced
    rfl
  | cons name names ih =>
    obtain ⟨blanks, later, rfl, areBlanks, written⟩ := Spaced.cons_inv spaced
    have ready := (open_assignments before).ready
    obtain ⟨start, indented, shifted⟩ := shiftAll_blanks scope line ready .bare areBlanks
    rw [shiftAll_append, shifted, pure_bind, shiftAll_append, shiftAll_singleton,
      shift_assign scope line name ready indented, pure_bind]
    have remaining := ih (name :: before) written
    simpa using remaining

theorem settle_assignments (value : Value) (names : List String) :
    settle scope line (some value) (names.map Frame.assignment) = (do
      bindAll scope value names
      pure (some value)) := by
  induction names with
  | nil => simp [settle, bindAll]
  | cons name names ih => simp [settle, bindAll, ih]

theorem settle_addition (left right : Value) (rest : Stack) :
    settle scope line (some right) (.addition left :: rest) = (do
      let total ← sumOf scope line left right
      settle scope line (some total) rest) := by
  simp only [settle, sumOf, bind_assoc]
  congr 1
  funext state
  cases left.add (scope.heap state) right <;> rfl

theorem finishes_closeLine (rest : Stack) :
    Finishes scope line rest (closeLine scope line) fun total =>
      settle scope line (some total) rest where
  alone := by
    intro frame solid
    simp only [closeLine, takeOperand_solid solid, Frame.read, bind_assoc, pure_bind]
  added left := by
    intro frame solid
    simp only [closeLine, takeOperand_solid solid, settle_addition, Frame.read, bind_assoc,
      pure_bind]

/-- Reducing any written form of a line is its direct evaluation: the value, the effects on the
scope in their order, and the first error are the same. -/
theorem reduceLine_of_renders {statement : Statement} {tokens : List Token}
    (renders : statement.Renders tokens) :
    reduceLine scope line tokens = some <$> statement.eval scope line := by
  obtain ⟨front, back, rfl, spaced, areBlanks⟩ := renders
  obtain ⟨written, body, rfl, names, expression⟩ := spaced.append_inv
  -- the assignments wait below the body, the last one on top, and are settled from there
  have named := shift_names scope line [] names
  have finishes := (finishes_closeLine scope line
    (statement.names.reverse.map Frame.assignment)).blanks areBlanks
  rw [List.append_nil] at named
  rw [reduceLine, shiftAll_append, shiftAll_append, bind_assoc, bind_assoc,
    show ([] : Stack) = ([] : List String).map Frame.assignment from rfl, named, pure_bind,
    shift_expression statement.body (open_assignments _) expression finishes, Statement.eval]
  simp only [settle_assignments, map_eq_pure_bind, bind_assoc, pure_bind]

/-- The line `x = a .f( 1, "b" ) + new T()`, with blanks around its brackets. -/
theorem reduceLine_spaced_call :
    let receiver : Atom := ⟨[.word "a"], by decide, by decide +kernel⟩
    let one : Atom := ⟨[.word "1"], by decide, by decide +kernel⟩
    let text : Atom := ⟨[.quoted "\"b\""], by decide, by decide +kernel⟩
    let call : Term := .call (.atom receiver) "f" [.term (.atom one), .term (.atom text)]
    let statement : Statement := ⟨["x"], .sum (.term call) (.new "T" [])⟩
    let tokens : List Token := [.assign "x", .space " ", .word "a", .space " ", .call "f",
      .space " ", .word "1", .comma, .space " ", .quoted "\"b\"", .space " ", .close, .space " ",
      .plus, .space " ", .new "T", .close, .space " "]
    statement.Renders tokens ∧
      reduceLine Session.scope 1 tokens = some <$> statement.eval Session.scope 1 := by
  intro receiver one text call statement tokens
  have none : Token.AreBlanks [] := by simp [Token.AreBlanks]
  have single : Token.AreBlanks [.space " "] := by
    intro token member
    exact ⟨" ", by simpa using member, by decide +kernel⟩
  have renders : statement.Renders tokens := by
    refine ⟨tokens.dropLast, [.space " "], rfl, ?_, single⟩
    exact .cons none (.cons single (.cons single (.cons single (.cons none (.cons single
      (.cons single (.cons single (.cons single (.cons none .nil)))))))))
  exact ⟨renders, reduceLine_of_renders Session.scope 1 renders⟩

end Lines

end Reducer

end Colloquy
