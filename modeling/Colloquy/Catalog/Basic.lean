import Colloquy.Catalog.Hierarchy
import Colloquy.Signature.Basic
import Colloquy.Value.Heap

/-!
# The catalog of host members

Constructors, static and instance members by type, name and parameters.  A later definition with
the same parameters replaces an earlier one.
-/

namespace Colloquy

/-- What a host function may do: read and change the heap, and fail with a message.  Changes made
before a failure stay. -/
abbrev HostM := ExceptT String (StateM Heap)

/-- A host function of its arguments; the receiver of an instance member comes first. -/
abbrev Native := List Value → HostM Value

/-- The role of a member on its type: it makes an object, or it is called without a receiver or on
one. -/
inductive MemberKind where
  | constructor
  | static
  | method
deriving DecidableEq, Repr

/-- Where the members of one type and name are filed. -/
structure MemberKey where
  /-- The fully-qualified type. -/
  typeName : String
  /-- The name of the members, none for constructors. -/
  member : Option String
deriving DecidableEq, Repr

/-- A host function with its parameters. -/
structure Member where
  /-- The role on the type. -/
  kind : MemberKind
  /-- The parameters, without the receiver. -/
  signature : Signature
  /-- The function itself. -/
  run : Native

/-- The member has the kind and takes the parameters. -/
def Member.fits (kind : MemberKind) (params : Signature) (member : Member) : Bool :=
  member.kind = kind && member.signature.sameParams params

/-- The types and members that a host offers. -/
structure Catalog where
  /-- The declared types. -/
  hierarchy : Hierarchy
  /-- The members of each type and name, in the order of their definition. -/
  members : Table MemberKey (List Member)

namespace Catalog

/-- The catalog of the value types alone. -/
def ofValues : Catalog := ⟨.ofValues, []⟩

/-- The catalog with a type and further supertypes of it. -/
def declareType (catalog : Catalog) (name : String) (supertypes : List String) : Catalog :=
  { catalog with hierarchy := catalog.hierarchy.declare name supertypes }

/-- The members filed under a key. -/
def membersAt (catalog : Catalog) (key : MemberKey) : List Member :=
  (catalog.members.get? key).getD []

/-- The resolver that knows the declared types. -/
def resolver (catalog : Catalog) : Resolver Unit := fun name =>
  return catalog.hierarchy.resolveName? name

/-- The signature that a text stands for in the catalog. -/
def parseSignature (catalog : Catalog) (text : String) : Except RuntimeError Signature :=
  ((Signature.parse catalog.resolver text).run ()).1

/-- The catalog with a member, which takes the place of one of the same kind and parameters. -/
def file (catalog : Catalog) (key : MemberKey) (new : Member) : Catalog :=
  let others := (catalog.membersAt key).filter fun member => !member.fits new.kind new.signature
  { catalog with members := catalog.members.put key (others ++ [new]) }

/-- An attempt that may change the catalog before it fails. -/
abbrev Attempt := ExceptT RuntimeError (StateM Catalog)

/-- Files a member of a declared type under the written parameters. -/
def addMember (kind : MemberKind) (key : MemberKey) (signature : String) (run : Native) :
    Attempt Unit := do
  let catalog ← get
  if catalog.hierarchy.contains key.typeName then
    let signature ← (liftM (catalog.parseSignature signature) : Attempt Signature)
    modify (·.file key ⟨kind, signature, run⟩)
  else throw (.unresolvableType key.typeName)

/-- The catalog after a member is added to it, for a host that gives up at the first failure. -/
def define (catalog : Catalog) (kind : MemberKind) (key : MemberKey) (signature : String)
    (run : Native) : Except RuntimeError Catalog :=
  let added := (addMember kind key signature run).run.run catalog
  added.1.map fun _ => added.2

/-- The member of a kind under a key that takes exactly the given parameters. -/
def findExact? (catalog : Catalog) (kind : MemberKind) (key : MemberKey) (params : Signature) :
    Option Member :=
  (catalog.membersAt key).find? (·.fits kind params)

/-- The constructor of a type. -/
def findConstructor? (catalog : Catalog) (typeName : String) (params : Signature) :
    Option Member :=
  catalog.findExact? .constructor ⟨typeName, none⟩ params

/-- The static member of a type. -/
def findStatic? (catalog : Catalog) (typeName name : String) (params : Signature) :
    Option Member :=
  catalog.findExact? .static ⟨typeName, some name⟩ params

/-- The instance member that a receiver of a type has: its own one, or that of the nearest
ancestor. -/
def findInstance? (catalog : Catalog) (typeName name : String) (params : Signature) :
    Option Member :=
  (typeName :: catalog.hierarchy.ancestors typeName).findSome? fun owner =>
    catalog.findExact? .method ⟨owner, some name⟩ params

/-- The value as a parameter of a type takes it.  Numbers widen to numeric primitives, classes take
assignable values, and the absent reference fits every class and array. -/
def coerce (catalog : Catalog) : TypeRef → Value → Option Value
  | .primitive (.numeric kind), .number num => (num.widen kind).map .number
  | .primitive .boolean, .bool truth => some (.bool truth)
  | .primitive .char, .char character => some (.char character)
  | .named _, .null => some .null
  | .named name, value =>
    if catalog.hierarchy.isAssignable value.typeName name then some value else none
  | .array _, .null => some .null
  | .array element, .array items => (items.mapM (catalog.coerce element)).map .array
  | _, _ => none

end Catalog

end Colloquy
