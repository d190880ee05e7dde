import Colloquy.Code.Scope
import Colloquy.Registry.Basic
import Colloquy.Value.Display

/-!
# Sessions

The scope of a document: its registry, its heap and its bindings.
-/

namespace Colloquy

/-- What the code of a document works on. -/
structure Session where
  /-- The registered handles. -/
  registry : Registry
  /-- The objects made so far. -/
  heap : Heap := {}
  /-- The values of the variables. -/
  bindings : Table String Value := []

namespace Session

/-- A step on the registry of a session. -/
def onRegistry {α : Type} (attempt : Registry.Attempt α) : Effect Session α := do
  let session ← get
  let (result, registry) := attempt.run session.registry
  set { session with registry }
  liftM result

/-- Calls an operation, or a constructor, of a type through the admitted handles. -/
def invoke (admits : HandleKind → Bool) (typeName : String) (operation : Option String)
    (args : List Value) : Effect Session Value := do
  let session ← get
  let ((result, heap), registry) :=
    session.registry.invoke session.heap admits typeName operation args
  set { session with registry, heap }
  liftM result

/-- Registers what a declaration declares. -/
def declare (declaration : Declaration) : Effect Session Unit := do
  let kind := match declaration.kind, declaration.operation with
    | .static, some _ => HandleKind.static
    | .virtual, some _ => .virtual
    | _, _ => .constructor
  let operation := if kind = .constructor then none else declaration.operation
  let _ ← onRegistry <|
    Registry.register kind declaration.typeName operation declaration.params declaration.narrowed

/-- The outcome of an effect, which itself never fails. -/
def outcome {α : Type} (effect : Effect Session α) :
    Effect Session (Except RuntimeError α) :=
  ExceptT.lift effect.run

/-- Calls an operation on a receiver.  If the receiver's own type has no operation that accepts the
arguments, its printed form is tried as the name of a type with such a static operation. -/
def call (operation : String) (receiver : Value) (args : List Value) : Effect Session Value := do
  match ← outcome (invoke Registry.virtualOnly receiver.typeName (some operation)
      (receiver :: args)) with
  | .ok result => return result
  | .error rejection =>
    let typeName := receiver.text (← get).heap
    match ← outcome (invoke Registry.staticOnly typeName (some operation) args) with
    | .ok result => return result
    | .error (.unresolvableType _) => throw rejection
    | .error error => throw error

/-- The scope of a document. -/
def scope : Scope Session where
  heap session := session.heap
  lookup session name := session.bindings.get? name
  assign name value := modify fun session =>
    { session with bindings := session.bindings.put name value }
  importType name := do
    let _ ← onRegistry (Registry.importType name)
  declare := declare
  construct typeName args := invoke Registry.anyKind typeName none args
  call := call

end Session

end Colloquy
