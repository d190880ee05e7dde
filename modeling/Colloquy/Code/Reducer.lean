import Colloquy.Code.Literal
import Colloquy.Code.Scope
import Colloquy.Value.Sum

/-!
# Reducing a line of code

Tokens are shifted onto a stack of pending parts one at a time.  Text gathers in a literal; a plus
sign, a comma, a closing bracket and the end of the line turn it into a value and complete what
waits for that value.
-/

namespace Colloquy

/-- A pending part of a line: gathered text, a finished value, or what waits for its closing
bracket, for its value or for its right operand. -/
inductive Frame where
  | literal (text : String)
  | computed (value : Value)
  | call (operation : String) (receiver : Value) (args : List Value)
  | construction (typeName : String) (args : List Value)
  | assignment (name : String)
  | addition (left : Value)

namespace Frame

/-- The frame holds an operand. -/
def isOperand : Frame → Bool
  | literal _ | computed _ => true
  | _ => false

/-- The frame is closed by a bracket. -/
def isCall : Frame → Bool
  | call .. | construction .. => true
  | _ => false

/-- The frame waits for a right operand. -/
def isAddition : Frame → Bool
  | addition _ => true
  | _ => false

/-- The arguments gathered by a call so far. -/
def args : Frame → List Value
  | call _ _ args | construction _ args => args
  | _ => []

/-- The frame with one more argument. -/
def pushArg (arg : Value) : Frame → Frame
  | call operation receiver args => call operation receiver (args ++ [arg])
  | construction typeName args => construction typeName (args ++ [arg])
  | frame => frame

/-- A word for a frame in messages. -/
def label : Frame → String
  | literal text => text
  | computed _ => "value"
  | call operation _ _ => "." ++ operation ++ "("
  | construction typeName _ => "new " ++ typeName ++ "("
  | assignment name => name ++ " ="
  | addition _ => "+"

end Frame

/-- The pending parts of a line, the innermost first. -/
abbrev Stack := List Frame

namespace Reducer

variable {σ : Type}

/-- A step of the reduction, which may fail after some effects. -/
abbrev Step (σ : Type) := ExceptT Error (StateM σ)

/-- The pending operand, if there is one, and the stack without it. -/
def takeOperand (lookup : String → Option Value) : Stack → Option Value × Stack
  | .literal text :: rest => (Literal.resolve lookup text, rest)
  | .computed value :: rest => (some value, rest)
  | stack => (none, stack)

/-- The value of an operand with the pending sums before it, taken from left to right. -/
def fold (heap : Heap) (line : Nat) (right : Value) : Stack → Except Error (Value × Stack)
  | .addition left :: rest =>
    match left.add heap right with
    | .ok sum => fold heap line sum rest
    | .error error => .error (.runtime line error)
  | stack => .ok (right, stack)

/-- The pending operand with the sums before it, and the stack without them.  A sum without its
right operand is an error. -/
def finishOperand (scope : Scope σ) (line : Nat) (stack : Stack) :
    Step σ (Option Value × Stack) := do
  let state ← get
  match takeOperand (scope.lookup state) stack with
  | (some value, rest) =>
    let (sum, rest) ← fold (scope.heap state) line value rest
    return (some sum, rest)
  | (none, rest) =>
    if rest.head?.elim false Frame.isAddition then throw (.parse (.missingValue line))
    else return (none, rest)

/-- The innermost pending part that is neither an operand nor a sum is a call. -/
def inCall (stack : Stack) : Bool :=
  match stack.find? fun frame => !frame.isOperand && !frame.isAddition with
  | some frame => frame.isCall
  | none => false

/-- The stack with text at its end.  Text may not follow a finished value. -/
def pushText (line : Nat) (text : String) : Stack → Except Error Stack
  | .literal gathered :: rest => .ok (.literal (gathered ++ text) :: rest)
  | .computed _ :: _ => .error (.parse (.unexpectedToken text line))
  | stack => .ok (.literal text :: stack)

/-- The stack with blanks at its end.  Blanks behind a finished value do not count. -/
def pushSpace (text : String) : Stack → Stack
  | .literal gathered :: rest => .literal (gathered ++ text) :: rest
  | .computed value :: rest => .computed value :: rest
  | stack => .literal text :: stack

/-- The stack without a blank literal at its end.  Any other operand is in the way of a token. -/
def expectNoOperand (token : String) (line : Nat) : Stack → Except Error Stack
  | .literal text :: rest =>
    if Text.allBlank text.toList then .ok rest else .error (.parse (.unexpectedToken token line))
  | .computed _ :: _ => .error (.parse (.unexpectedToken token line))
  | stack => .ok stack

/-- Nothing is pending but blanks. -/
def expectIdle (token : String) (line : Nat) (stack : Stack) : Except Error Stack := do
  match ← expectNoOperand token line stack with
  | [] => return []
  | _ => throw (.parse (.unexpectedToken token line))

/-- An effect of a scope as a step on a line. -/
def onLine {α : Type} (line : Nat) (effect : Effect σ α) : Step σ α :=
  effect.adapt (.runtime line)

/-- The result of a call whose arguments are complete. -/
def invoke (scope : Scope σ) (line : Nat) : Frame → Step σ Value
  | .call operation receiver args => onLine line (scope.call operation receiver args)
  | .construction typeName args => onLine line (scope.construct typeName args)
  | frame => throw (.parse (.unexpectedToken frame.label line))

/-- Shifts a plus sign; without a left operand it is text. -/
def plus (scope : Scope σ) (line : Nat) (stack : Stack) : Step σ Stack := do
  let state ← get
  match takeOperand (scope.lookup state) stack with
  | (some left, rest) =>
    let (left, rest) ← fold (scope.heap state) line left rest
    return .addition left :: rest
  | (none, rest) => pushText line "+" rest

/-- Shifts a comma, which ends an argument of the innermost call; outside of calls it is text. -/
def comma (scope : Scope σ) (line : Nat) (stack : Stack) : Step σ Stack := do
  if inCall stack then
    match ← finishOperand scope line stack with
    | (some arg, frame :: rest) => return frame.pushArg arg :: rest
    | (some _, []) => return []
    | (none, _) => throw (.parse (.emptyArgument line))
  else pushText line "," stack

/-- Shifts a closing bracket, which completes the innermost call; outside of calls it is text. -/
def close (scope : Scope σ) (line : Nat) (stack : Stack) : Step σ Stack := do
  if inCall stack then
    match ← finishOperand scope line stack with
    | (some arg, frame :: rest) =>
      return .computed (← invoke scope line (frame.pushArg arg)) :: rest
    | (none, frame :: rest) =>
      if frame.args.isEmpty then return .computed (← invoke scope line frame) :: rest
      else throw (.parse (.emptyArgument line))
    | (_, []) => return []
  else pushText line ")" stack

/-- Completes the pending parts with the operand to their right, innermost first. -/
def settle (scope : Scope σ) (line : Nat) (operand : Option Value) :
    Stack → Step σ (Option Value)
  | [] => return operand
  | .addition left :: rest => do
    let some right := operand | throw (.parse (.missingValue line))
    match left.add (scope.heap (← get)) right with
    | .ok sum => settle scope line (some sum) rest
    | .error error => throw (.runtime line error)
  | .assignment name :: rest => do
    let some value := operand | throw (.parse (.missingValue line))
    scope.assign name value
    settle scope line (some value) rest
  | frame :: rest => do
    let complete := operand.elim frame frame.pushArg
    let value ← invoke scope line complete
    settle scope line (some value) rest

/-- Completes everything that is pending at the end of a line. -/
def closeLine (scope : Scope σ) (line : Nat) (stack : Stack) : Step σ (Option Value) := do
  let (operand, rest) := takeOperand (scope.lookup (← get)) stack
  settle scope line operand rest

/-- Shifts one token. -/
def shift (scope : Scope σ) (line : Nat) (token : Token) (stack : Stack) : Step σ Stack :=
  match token with
  | .word text | .char text | .quoted text => pushText line text stack
  | .space text => return pushSpace text stack
  | .plus => plus scope line stack
  | .comma => comma scope line stack
  | .close => close scope line stack
  | .assign name => do
    let rest ← expectNoOperand (name ++ " =") line stack
    return .assignment name :: rest
  | .new typeName => do
    let rest ← expectNoOperand ("new " ++ typeName ++ "(") line stack
    return .construction typeName [] :: rest
  | .call operation => do
    match takeOperand (scope.lookup (← get)) stack with
    | (some receiver, rest) => return .call operation receiver [] :: rest
    | (none, _) => throw (.parse (.missingValue line))
  | .importType typeName => do
    let rest ← expectIdle ("import " ++ typeName) line stack
    onLine line (scope.importType typeName)
    return rest
  | .declaration declaration => do
    let rest ← expectIdle declaration.typeName line stack
    onLine line (scope.declare declaration)
    return rest
  | .newLine => do
    let _ ← closeLine scope line stack
    return []

end Reducer

end Colloquy
