import Mathlib.Logic.Relation
import Colloquy.Catalog.Basic
import Colloquy.Proofs.Signature.Reading

/-!
# Names in signatures

The classes of a signature that was read are names that the resolver returned.  A resolver that
returns every such name for itself from then on keeps all of them known.
-/

namespace Colloquy

variable {memory : Type}

/-- A name that stands for a class wherever a type is written. -/
structure Nameable (name : String) : Prop where
  /-- The name has characters. -/
  nonempty : name.toList ≠ []
  /-- Each of them may stand in the name of a type. -/
  spelled : name.toList.all TypeRef.isNameChar
  /-- The name is not that of a primitive type. -/
  notPrimitive : Primitive.ofKeyword? name = none
  /-- The name cannot be taken for that of a variadic parameter. -/
  notSpread : ¬['.', '.', '.'] <:+ name.toList

instance (name : String) : Decidable (Nameable name) :=
  decidable_of_iff
    (name.toList ≠ [] ∧ name.toList.all TypeRef.isNameChar ∧ Primitive.ofKeyword? name = none ∧
      ¬['.', '.', '.'] <:+ name.toList)
    ⟨fun ⟨nonempty, spelled, notPrimitive, notSpread⟩ =>
      ⟨nonempty, spelled, notPrimitive, notSpread⟩,
      fun nameable =>
        ⟨nameable.nonempty, nameable.spelled, nameable.notPrimitive, nameable.notSpread⟩⟩

namespace Resolver

variable (resolve : Resolver memory)

/-- Resolving names one after another leads from one memory to another. -/
def Reaches : memory → memory → Prop :=
  Relation.ReflTransGen fun before after => ∃ name, after = ((resolve name).run before).2

/-- From a memory on, the name is resolved as itself. -/
def Settled (now : memory) (name : String) : Prop :=
  Nameable name ∧ ∀ later, resolve.Reaches now later → ((resolve name).run later).1 = some name

/-- A resolver that maps each name it has returned to itself. -/
def Canonical : Prop :=
  ∀ name before full after,
    (resolve name).run before = (some full, after) → resolve.Settled after full

variable {resolve} {now next : memory} {name : String}

theorem keeps_reaches (start : memory) (name : String) :
    Keeps (resolve.Reaches start) (resolve name) :=
  fun _ reached => reached.tail ⟨name, rfl⟩

theorem Settled.later (settled : resolve.Settled now name) (reached : resolve.Reaches now next) :
    resolve.Settled next name :=
  ⟨settled.1, fun final further => settled.2 final (reached.trans further)⟩

theorem keeps_settled (name other : String) :
    Keeps (resolve.Settled · name) (resolve other) :=
  fun _ settled => settled.later (.single ⟨other, rfl⟩)

end Resolver

/-- A catalog resolves the names of its types as themselves. -/
theorem Catalog.canonical_resolver {catalog : Catalog}
    (nameable : ∀ name ∈ catalog.hierarchy.types.keys, Nameable name) :
    catalog.resolver.Canonical := by
  intro name _ full _ resolved
  have found : catalog.hierarchy.resolveName? name = some full := congrArg Prod.fst resolved
  have declared : catalog.hierarchy.contains full := by
    unfold Hierarchy.resolveName? at found
    split at found
    · cases found
      assumption
    · split at found
      · rename_i only
        cases found
        have member := only ▸ List.mem_singleton_self full
        exact Table.has_iff_mem_keys.2 (List.mem_filter.1 member).1
      · cases found
  refine ⟨nameable full (Table.has_iff_mem_keys.1 declared), fun _ _ => ?_⟩
  exact if_pos declared

namespace TypeRef

/-- The class that a type names, if it names one, has a property. -/
def Names (good : String → Prop) : TypeRef → Prop
  | primitive _ => True
  | named name => good name
  | array element => element.Names good

theorem Names.imp {good better : String → Prop} {type : TypeRef} (names : type.Names good)
    (stronger : ∀ name, good name → better name) : type.Names better := by
  induction type with
  | primitive type => trivial
  | named name => exact stronger name names
  | array element ih => exact ih names

theorem names_nested {good : String → Prop} {element : TypeRef} (depth : Nat) :
    (element.nested depth).Names good ↔ element.Names good := by
  induction depth with
  | zero => rfl
  | succ depth ih => exact ih

variable {resolve : Resolver memory} {before after : memory} {type : TypeRef}

theorem settled_ofName? (canonical : resolve.Canonical) {name : List Char}
    (read : (ofName? resolve name).run before = (some type, after)) :
    type.Names (resolve.Settled after) := by
  unfold ofName? at read
  split at read
  · cases read
  · dsimp only at read
    split at read
    · cases read
      trivial
    · rw [StateT.run_bind] at read
      cases outcome : (resolve (String.ofList name)).run before with
      | mk found middle =>
        rw [outcome] at read
        cases found with
        | none => cases read
        | some full =>
          cases read
          exact canonical _ _ _ _ outcome

theorem settled_parse? (canonical : resolve.Canonical) {text : List Char}
    (read : (parse? resolve text).run before = (some type, after)) :
    type.Names (resolve.Settled after) := by
  rw [parse?, StateT.run_bind] at read
  cases outcome : (ofName? resolve
      (Text.trimStart (splitArrays text.reverse).2.reverse)).run before with
  | mk found middle =>
    rw [outcome] at read
    cases found with
    | none => cases read
    | some core =>
      cases read
      exact (names_nested _).2 (settled_ofName? canonical outcome)

end TypeRef

namespace Signature

/-- The classes that a signature names have a property. -/
structure Names (good : String → Prop) (signature : Signature) : Prop where
  /-- Those of the parameters do. -/
  params : ∀ type ∈ signature.params, type.Names good
  /-- That of the result does. -/
  returns : ∀ type ∈ signature.returns, type.Names good

variable {resolve : Resolver memory} {before after : memory}

/-- A list of parameters is read by resolving names. -/
theorem reaches_parseList (list : List Char) :
    resolve.Reaches before ((parseList resolve list).run.run before).2 :=
  good_parseList (compositional_keeps _) (Resolver.keeps_reaches before) list before .refl

/-- A type is read if its text is that of one. -/
theorem run_parseType (text name : List Char) :
    (parseType resolve text name).run.run before =
      (((TypeRef.parse? resolve text).run before).1.elim
        (.error (.unresolved (String.ofList name))) .ok,
        ((TypeRef.parse? resolve text).run before).2) := by
  rw [parseType, ExceptT.run_bind, StateT.run_bind]
  cases outcome : (TypeRef.parse? resolve text).run before with
  | mk found middle =>
    have lifted : (liftM (TypeRef.parse? resolve text) :
        ExceptT SignatureFault (StateM memory) _).run.run before = (.ok found, middle) := by
      change (Except.ok <$> TypeRef.parse? resolve text).run before = _
      rw [StateT.run_map, outcome]
      rfl
    rw [lifted]
    cases found <;> rfl

theorem settled_parseType (canonical : resolve.Canonical) {text name : List Char} {type : TypeRef}
    (read : (parseType resolve text name).run.run before = (.ok type, after)) :
    type.Names (resolve.Settled after) := by
  rw [run_parseType] at read
  cases outcome : (TypeRef.parse? resolve text).run before with
  | mk found middle =>
    rw [outcome] at read
    cases found with
    | none => cases read
    | some found =>
      cases read
      exact TypeRef.settled_parse? canonical outcome

/-- Names stay settled while further parameters are read. -/
theorem keeps_names (type : TypeRef) (position : Nat) (parts : List (List Char)) :
    Keeps (type.Names <| resolve.Settled ·) (parseParams resolve position parts).run :=
  good_parseParams (compositional_keeps _)
    (fun other _ names => names.imp fun name => Resolver.keeps_settled name other _) position parts

theorem settled_parseParams (canonical : resolve.Canonical) {position : Nat}
    {parts : List (List Char)} {types : List TypeRef} {variadic : Bool}
    (read : (parseParams resolve position parts).run.run before = (.ok (types, variadic), after)) :
    ∀ type ∈ types, type.Names (resolve.Settled after) := by
  induction parts generalizing position types variadic before with
  | nil =>
    cases read
    exact List.forall_mem_nil _
  | cons part parts ih =>
    rw [parseParams] at read
    dsimp only at read
    split at read
    · cases read
    · obtain ⟨type, middle, typeRead, read⟩ := run_bind_ok read
      have settled := settled_parseType canonical typeRead
      split at read
      · split at read
        · cases read
          exact List.forall_mem_singleton.2 settled
        · cases read
      · have kept := keeps_names type (position + 1) parts middle settled
        obtain ⟨others, last, othersRead, read⟩ := run_bind_ok read
        rw [othersRead] at kept
        cases read
        exact List.forall_mem_cons.2 ⟨kept, ih othersRead⟩

theorem settled_parseList (canonical : resolve.Canonical) {list : List Char}
    {types : List TypeRef} {variadic : Bool}
    (read : (parseList resolve list).run.run before = (.ok (types, variadic), after)) :
    ∀ type ∈ types, type.Names (resolve.Settled after) := by
  unfold parseList at read
  split at read
  · cases read
    exact List.forall_mem_nil _
  · exact settled_parseParams canonical read

theorem settled_parseReturns (canonical : resolve.Canonical) {text : List Char}
    {returns : Option TypeRef}
    (read : (parseReturns resolve text).run.run before = (.ok returns, after)) :
    ∀ type ∈ returns, type.Names (resolve.Settled after) := by
  unfold parseReturns at read
  split at read
  · cases read
    exact fun _ none => nomatch none
  · obtain ⟨type, middle, typeRead, read⟩ := run_bind_ok read
    cases read
    rintro _ ⟨⟩
    exact settled_parseType canonical typeRead
  · cases read

theorem settled_parseTrimmed (canonical : resolve.Canonical) {text : List Char}
    {signature : Signature}
    (read : (parseTrimmed resolve text).run.run before = (.ok signature, after)) :
    signature.Names (resolve.Settled after) := by
  unfold parseTrimmed at read
  split at read
  · split at read
    · cases read
    · rename_i list tail _
      obtain ⟨returns, middle, returnsRead, read⟩ := run_bind_ok read
      have settled := settled_parseReturns canonical returnsRead
      have kept : ∀ type ∈ returns, type.Names
          (resolve.Settled ((parseList resolve list).run.run middle).2) := fun type known =>
        (settled type known).imp fun name named => named.later (reaches_parseList list)
      obtain ⟨⟨types, variadic⟩, last, listRead, read⟩ := run_bind_ok read
      rw [listRead] at kept
      cases read
      exact ⟨settled_parseList canonical listRead, kept⟩
  · obtain ⟨⟨types, variadic⟩, last, listRead, read⟩ := run_bind_ok read
    cases read
    exact ⟨settled_parseList canonical listRead, fun _ none => nomatch none⟩

/-- The classes that a signature names are settled when it was read. -/
theorem settled_parse (canonical : resolve.Canonical) {text : String} {signature : Signature}
    (read : (parse resolve text).run.run before = (.ok signature, after)) :
    signature.Names (resolve.Settled after) :=
  settled_parseTrimmed canonical (run_parse_ok_iff.1 read)

end Signature

end Colloquy
