import Colloquy.Catalog.Basic

/-!
# Handles

A handle is a registered constructor or operation.  It checks and converts the arguments of a call
before the host function sees them, and converts the result.
-/

namespace Colloquy

/-- How a handle is called: to make an object, without a receiver, or with the receiver as the first
argument. -/
inductive HandleKind where
  | constructor
  | static
  | virtual
deriving DecidableEq, Repr

/-- A registered constructor or operation. -/
structure Handle where
  /-- The type that the declaration was written against. -/
  declaring : String
  /-- The operation, none for a constructor. -/
  name : Option String
  /-- How the handle is called. -/
  kind : HandleKind
  /-- The parameters of the host function. -/
  declared : Signature
  /-- The parameters that arguments are matched against. -/
  external : Signature
  /-- The host function. -/
  run : Native

/-- Why a handle rejects a call.  Arguments are counted from one. -/
inductive InvokeFailure where
  | arity (expected actual : Nat)
  | receiver (typeName : String)
  | argument (position : Nat) (typeName expected : String)
  | result (typeName expected : String)
  | native (message : String)
deriving DecidableEq, Repr

/-- The wording of a rejection. -/
def InvokeFailure.message : InvokeFailure → String
  | arity expected actual =>
    "expected " ++ toString expected ++ " arguments, got " ++ toString actual
  | receiver typeName => "receiver of type " ++ typeName ++ " does not fit"
  | argument position typeName expected =>
    "argument " ++ toString position ++ " of type " ++ typeName ++ " does not fit " ++ expected
  | result typeName expected => "result of type " ++ typeName ++ " does not fit " ++ expected
  | native message => message

namespace Handle

/-- The text of a handle. -/
def text (handle : Handle) : String :=
  match handle.name with
  | some name => handle.declaring ++ "." ++ name ++ handle.external.text
  | none => handle.declaring ++ handle.external.text

/-- The number of arguments of a call, the receiver included. -/
def arity (handle : Handle) : Nat :=
  handle.external.arity + if handle.kind = .virtual then 1 else 0

/-- The value may stand for a whole array of packed arguments. -/
def isPacked : Value → Bool
  | .array _ => true
  | .null => true
  | _ => false

/-- The arguments matched to the parameters, the last ones of a variadic call in an array. -/
def pack? (signature : Signature) (args : List Value) : Option (List Value) :=
  if signature.variadic then
    let fixed := signature.arity - 1
    if args.length < fixed then none
    else if args.length = signature.arity && (args.getLast?.elim false isPacked) then some args
    else some (args.take fixed ++ [.array (args.drop fixed)])
  else if args.length = signature.arity then some args
  else none

/-- The arguments from a position on, converted first to the external and then to the declared
parameters. -/
def convert (catalog : Catalog) (position : Nat) :
    List TypeRef → List TypeRef → List Value → Except InvokeFailure (List Value)
  | external :: externals, declared :: declareds, value :: values =>
    match (catalog.coerce external value).bind (catalog.coerce declared) with
    | some converted =>
      (convert catalog (position + 1) externals declareds values).map (converted :: ·)
    | none => .error (.argument position value.typeName external.text)
  | _, _, _ => .ok []

/-- The receiver of a call, if the handle takes one, and the other arguments. -/
def splitReceiver (handle : Handle) (catalog : Catalog) (args : List Value) :
    Except InvokeFailure (Option Value × List Value) :=
  if handle.kind = .virtual then
    match args with
    | [] => .error (.arity handle.arity 0)
    | receiver :: rest =>
      if receiver.isNull || !catalog.hierarchy.isAssignable receiver.typeName handle.declaring then
        .error (.receiver receiver.typeName)
      else .ok (some receiver, rest)
  else .ok (none, args)

/-- The arguments that the host function is given. -/
def arguments (handle : Handle) (catalog : Catalog) (args : List Value) :
    Except InvokeFailure (Option Value × List Value) := do
  let (receiver, rest) ← handle.splitReceiver catalog args
  let some packed := pack? handle.external rest
    | throw (.arity handle.arity args.length)
  let converted ← convert catalog 1 handle.external.params handle.declared.params packed
  return (receiver, receiver.toList ++ converted)

/-- The host function of a call: for a receiver, that of its own type. -/
def implementation (handle : Handle) (catalog : Catalog) (receiver : Option Value) : Native :=
  match receiver, handle.name with
  | some receiver, some name =>
    match catalog.findInstance? receiver.typeName name handle.declared with
    | some member => member.run
    | none => handle.run
  | _, _ => handle.run

/-- The result as the external signature returns it. -/
def convertResult (handle : Handle) (catalog : Catalog) (result : Value) :
    Except InvokeFailure Value :=
  match handle.external.returns with
  | none => .ok result
  | some returns =>
    match catalog.coerce returns result with
    | some converted => .ok converted
    | none => .error (.result result.typeName returns.text)

/-- Calls a handle.  What the host function changed stays changed when its result is rejected. -/
def invoke (handle : Handle) (catalog : Catalog) (args : List Value) :
    ExceptT InvokeFailure (StateM Heap) Value := do
  let (receiver, args) ← handle.arguments catalog args
  let result ← (handle.implementation catalog receiver args).adapt .native
  handle.convertResult catalog result

end Handle

end Colloquy
