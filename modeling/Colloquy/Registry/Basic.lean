import Colloquy.Catalog.Discovery
import Colloquy.Registry.Handle
import Colloquy.Registry.Imports

/-!
# The registry

The handles that a document has registered, by type and operation.  A virtual handle is also filed
under the subclasses of its type, whichever of the two is known first.
-/

namespace Colloquy

/-- A handle in its place. -/
structure Filing where
  /-- The type that the handle is filed under. -/
  typeName : String
  /-- The handle. -/
  handle : Handle

/-- What handles are filed under. -/
structure FilingKey where
  typeName : String
  operation : Option String
deriving DecidableEq

/-- The order in which a table of handles is gone through: the keys in the order of their entry,
rearranged.  A hash table has such an order and promises nothing about it, so it is left open. -/
structure TableOrder where
  /-- The keys as they are visited, from the keys as they were entered. -/
  visit : List FilingKey → List FilingKey
  perm : ∀ keys, (visit keys).Perm keys

/-- Keys are visited as they were entered. -/
def TableOrder.ofEntry : TableOrder := ⟨id, fun keys => .refl keys⟩

/-- What a document has imported, discovered and registered. -/
structure Registry where
  /-- The types and members of the host. -/
  catalog : Catalog
  /-- The imported types. -/
  imports : Imports := {}
  /-- The types referred to so far. -/
  discovery : Discovery := {}
  /-- The packages that short names are looked up in, in order. -/
  packages : List String
  /-- The handles in the order of their filing. -/
  filings : List Filing := []
  /-- The order in which the table of the filed handles is gone through. -/
  order : TableOrder := .ofEntry

/-- The operation that a constructor is reported as. -/
def constructorLabel : String := "<init>"

namespace Registry

/-- The handles filed under a type for an operation. -/
def handles (registry : Registry) (typeName : String) (operation : Option String) :
    List Handle :=
  (registry.filings.filter fun filing =>
    filing.typeName = typeName && filing.handle.name = operation).map (·.handle)

/-- The handles of one arity. -/
def bucket (registry : Registry) (typeName : String) (operation : Option String) (arity : Nat) :
    List Handle :=
  (registry.handles typeName operation).filter (·.arity = arity)

/-- The greatest arity of handles. -/
def topArity (handles : List Handle) : Nat := (handles.map (·.arity)).foldl max 0

/-- The handles, those of a smaller arity first. -/
def byArity (handles : List Handle) : List Handle :=
  (List.range (topArity handles + 1)).flatMap fun arity => handles.filter (·.arity = arity)

/-- The handles that take at most so many arguments, those of a greater arity first. -/
def trialOrder (handles : List Handle) (limit : Nat) : List Handle :=
  (List.range (min limit (topArity handles) + 1)).reverse.flatMap fun arity =>
    handles.filter (·.arity = arity)

/-- A handle with the same external parameters is filed in the same place. -/
def isFiled (registry : Registry) (typeName : String) (handle : Handle) : Bool :=
  (registry.bucket typeName handle.name handle.arity).any fun other =>
    other.external.sameParams handle.external

/-- The registry with a handle under a type, unless it is filed there. -/
def file (registry : Registry) (typeName : String) (handle : Handle) : Registry :=
  if registry.isFiled typeName handle then registry
  else { registry with filings := registry.filings ++ [⟨typeName, handle⟩] }

/-- The fully-qualified type that a name refers to: an imported one, a declared one, or the first
one in the packages. -/
def lookupType? (registry : Registry) (name : String) : Option String :=
  match registry.imports.get? name with
  | some qualified => some qualified
  | none =>
    if registry.catalog.hierarchy.contains name then some name
    else (registry.packages.map (· ++ "." ++ name)).find? registry.catalog.hierarchy.contains

/-- The keys that handles are filed under, in the order of their entry. -/
def keys (registry : Registry) : List FilingKey :=
  (registry.filings.map fun filing => ⟨filing.typeName, filing.handle.name⟩).eraseDups

/-- The virtual handles that a type inherits: those of each operation of each discovered supertype,
in the order in which the table visits these.  Under one key, the handles of a smaller arity come
first. -/
def inherited (registry : Registry) (typeName : String) : List Handle :=
  let supertypes := registry.discovery.supertypesOf typeName
  let sources := (registry.order.visit registry.keys).filter fun key =>
    key.operation.isSome && key.typeName ∈ supertypes
  (sources.flatMap fun key => byArity (registry.handles key.typeName key.operation)).filter
    (·.kind = .virtual)

/-- The registry that knows a type, with the handles that the type inherits. -/
def discover (registry : Registry) (typeName : String) : Registry :=
  if registry.discovery.contains typeName then registry
  else
    let known := { registry with
      discovery := registry.discovery.discover registry.catalog.hierarchy typeName }
    (known.inherited typeName).foldl (·.file typeName ·) known

/-- Finds the type that a name refers to, and discovers it. -/
def resolver : Resolver Registry := fun name => do
  let registry ← get
  match registry.lookupType? name with
  | some qualified =>
    set (registry.discover qualified)
    return some qualified
  | none => return none

/-- An attempt that may change the registry before it fails. -/
abbrev Attempt := ExceptT RuntimeError (StateM Registry)

/-- The type that a name refers to. -/
def resolveType (name : String) : Attempt String := do
  match ← resolver name with
  | some qualified => return qualified
  | none => throw (.unresolvableType name)

/-- Imports a declared type under its short name. -/
def importType (name : String) : Attempt String := do
  let registry ← get
  if registry.catalog.hierarchy.contains name then
    let imports ← registry.imports.insert name
    set ({ registry with imports }.discover name)
    return name
  else throw (.unresolvableType name)

/-- The host member that a handle of a kind calls. -/
def member? (catalog : Catalog) (kind : HandleKind) (typeName : String)
    (operation : Option String) (declared : Signature) : Option Member :=
  match kind, operation with
  | .constructor, _ => catalog.findConstructor? typeName declared
  | .static, some operation => catalog.findStatic? typeName operation declared
  | .virtual, some operation => catalog.findInstance? typeName operation declared
  | _, none => none

/-- The signature that a narrowed text stands for, which has as many parameters as the declared
one. -/
def parseNarrowed (declared : Signature) (text : String) : Attempt Signature := do
  let external ← Signature.parse resolver text
  if external.arity = declared.arity then return external
  else throw (.malformedSignature text (.otherArity declared.arity declared.text))

/-- Files a handle under its type and, if it is virtual, under the subclasses of that, and tells
whether it was new under its own type. -/
def fileHandle (handle : Handle) : Attempt Bool := do
  let registry ← get
  let fresh := !registry.isFiled handle.declaring handle
  let subclasses :=
    if handle.kind = .virtual then registry.discovery.subclassesOf handle.declaring else []
  set ((handle.declaring :: subclasses).foldl (·.file · handle) registry)
  return fresh

/-- Registers a constructor or an operation under the written signatures. -/
def register (kind : HandleKind) (typeName : String) (operation : Option String)
    (params : String) (narrowed : Option String) : Attempt Bool := do
  let qualified ← resolveType typeName
  let declared ← Signature.parse resolver params
  let some member := member? (← get).catalog kind qualified operation declared
    | throw (.noSuchMember qualified (operation.getD constructorLabel) declared.text)
  let external ← match narrowed with
    | some text => parseNarrowed declared text
    | none => pure declared
  fileHandle ⟨qualified, operation, kind, declared, external, member.run⟩

/-- The handles in the order in which a call with so many arguments tries them. -/
def candidates (registry : Registry) (typeName : String) (operation : Option String)
    (limit : Nat) : List Handle :=
  match registry.lookupType? typeName with
  | some qualified => trialOrder (registry.handles qualified operation) limit
  | none => []

/-- The result of the first handle that accepts the arguments.  What rejecting handles changed
stays changed. -/
def firstAccepted (catalog : Catalog) (args : List Value) :
    List Handle → StateM Heap (Option Value)
  | [] => return none
  | handle :: rest => do
    match ← (handle.invoke catalog args).run with
    | .ok result => return some result
    | .error _ => firstAccepted catalog args rest

/-- The types of arguments, separated by commas. -/
def argumentTypes (args : List Value) : String :=
  ", ".intercalate (args.map (·.typeName))

/-- Calls a constructor or an operation of a type through the admitted handles. -/
def invoke (registry : Registry) (heap : Heap) (admits : HandleKind → Bool) (typeName : String)
    (operation : Option String) (args : List Value) :
    (Except RuntimeError Value × Heap) × Registry :=
  let (found, registry) := (resolver typeName).run registry
  match found with
  | none => ((.error (.unresolvableType typeName), heap), registry)
  | some qualified =>
    let label := operation.getD constructorLabel
    let handles := registry.handles qualified operation
    if handles.isEmpty then ((.error (.noHandle qualified label), heap), registry)
    else
      let admitted := (trialOrder handles args.length).filter fun handle => admits handle.kind
      let (accepted, heap) := (firstAccepted registry.catalog args admitted).run heap
      match accepted with
      | some result => ((.ok result, heap), registry)
      | none =>
        ((.error (.noMatchingOverload qualified label (argumentTypes args)), heap), registry)

/-- Admits handles of every kind. -/
def anyKind : HandleKind → Bool := fun _ => true

/-- Admits virtual handles only. -/
def virtualOnly : HandleKind → Bool := (· = .virtual)

/-- Admits all but virtual handles. -/
def staticOnly : HandleKind → Bool := (· ≠ .virtual)

end Registry

end Colloquy
