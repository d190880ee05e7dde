import Mathlib.Data.List.Forall2
import Colloquy.Proofs.Catalog.Ancestors
import Colloquy.Proofs.Catalog.Coercion
import Colloquy.Proofs.Host.Failures
import Colloquy.Proofs.Host.Safety

/-!
# What types promise to host functions

The parameters that a member is declared with, and its type if it has a receiver, promise what its
host function demands.
-/

namespace Colloquy.Host

/-- The classes whose values host functions look into, with what these values are. -/
def classes : List (String × Demand) :=
  [(TypeName.string, .text), (Builder.className, .builder), (Lists.collectionName, .list),
    (Lists.listName, .list), (Lists.arrayListName, .list), (Lists.linkedListName, .list),
    (TypeName.number, .number)] ++ NumKind.all.map fun kind => (TypeName.boxed kind, .number)

/-- What is promised of a value of a class. -/
def Demand.ofClass (name : String) : Demand := (classes.lookup name).getD .something

/-- What is promised of a value of a type. -/
def Demand.ofType : TypeRef → Demand
  | .primitive (.numeric (.whole width)) => .whole width
  | .primitive (.numeric .double) => .double
  | .primitive _ => .something
  | .named name => .ofClass name
  | .array _ => .array

/-- The direct supertypes in the library promise no more than their subtypes. -/
theorem ofClass_supertypes : ∀ entry ∈ typesOnly.hierarchy.types, ∀ supertype ∈ entry.2,
    Demand.ofClass supertype = .something ∨
      Demand.ofClass entry.1 = Demand.ofClass supertype := by
  decide +kernel

theorem ofClass_of_extends {name supertype : String}
    (direct : typesOnly.hierarchy.Extends name supertype) :
    Demand.ofClass supertype = .something ∨ Demand.ofClass name = Demand.ofClass supertype := by
  rw [Hierarchy.Extends, Hierarchy.supertypes] at direct
  cases found : typesOnly.hierarchy.types.get? name with
  | none =>
    rw [found] at direct
    cases direct
  | some supertypes =>
    rw [found] at direct
    obtain ⟨before, after, table, -⟩ := List.lookup_eq_some_iff.1 found
    exact ofClass_supertypes (name, supertypes) (by simp [table]) supertype direct

theorem ofClass_of_path {source target : String}
    (path : Relation.TransGen typesOnly.hierarchy.Extends source target) :
    Demand.ofClass target = .something ∨ Demand.ofClass source = Demand.ofClass target := by
  induction path with
  | single direct => exact ofClass_of_extends direct
  | tail _ direct ih =>
    rcases ofClass_of_extends direct with weak | same
    · exact .inl weak
    · rwa [← same]

/-- A type promises no more than the types that are assignable to it. -/
theorem ofClass_of_isAssignable {source target : String}
    (assignable : typesOnly.hierarchy.isAssignable source target) :
    Demand.ofClass target = .something ∨ Demand.ofClass source = Demand.ofClass target := by
  rcases Hierarchy.isAssignable_iff.1 assignable with rfl | rfl | path
  · exact .inr rfl
  · exact .inl (by decide)
  · exact ofClass_of_path path

variable {alphabet : Alphabet} {heap : Heap} {value : Value} {catalog : Catalog}

/-- A sound value is what its own type promises. -/
theorem met_typeName (sound : value.Sound alphabet heap) (present : ¬value.isNull) :
    (Demand.ofClass value.typeName).Met value := by
  cases sound with
  | null => exact absurd rfl present
  | bool | char | array => exact present
  | number num =>
    have promised : Demand.ofClass (TypeName.boxed num.kind) = .number := by
      rcases num.kind with (_ | _ | _ | _) | _ | _ <;> decide
    rw [Value.typeName, promised]
    exact ⟨num, rfl⟩
  | str => exact ⟨_, rfl⟩
  | @object reference typed =>
    have known := typed.className_mem
    simp only [classNames, List.mem_cons, List.not_mem_nil, or_false] at known
    rw [Value.typeName]
    rcases known with isList | isList | isBuilder | isPlain
    · rw [isList]
      exact ⟨reference, rfl, .inl isList⟩
    · rw [isList]
      exact ⟨reference, rfl, .inr isList⟩
    · rw [isBuilder]
      exact ⟨reference, rfl, isBuilder⟩
    · rw [isPlain]
      exact present
  | @marker mark =>
    rcases mark with _ | ⟨_, _ | _⟩ <;> exact present

/-- A value that is assignable to a class is what is promised of it. -/
theorem met_of_isAssignable (sound : value.Sound alphabet heap) (present : ¬value.isNull)
    {target : String} (assignable : typesOnly.hierarchy.isAssignable value.typeName target) :
    (Demand.ofClass target).Met value := by
  rcases ofClass_of_isAssignable assignable with weak | same
  · rw [weak]
    exact present
  · rw [← same]
    exact met_typeName sound present

/-- A value that converts to itself under a type is what is promised of it. -/
theorem met_of_coerce (types : catalog.hierarchy = typesOnly.hierarchy) {type : TypeRef}
    (sound : value.Sound alphabet heap) (present : ¬value.isNull)
    (fits : catalog.coerce type value = some value) : (Demand.ofType type).Met value := by
  cases type with
  | primitive type =>
    cases type with
    | boolean | char => exact present
    | numeric kind =>
      cases value <;> simp only [Catalog.coerce, reduceCtorEq] at fits
      rename_i number
      obtain ⟨wide, widens, same⟩ := Option.map_eq_some_iff.1 fits
      cases same
      have widened := Number.kind_of_widen widens
      cases kind with
      | whole width =>
        cases number <;> cases widened
        exact ⟨_, rfl, rfl⟩
      | float => exact present
      | double =>
        cases number <;> cases widened
        exact ⟨_, rfl⟩
  | named name =>
    refine met_of_isAssignable sound present ?_
    rw [← types]
    cases value <;> simp_all [Catalog.coerce, Value.isNull]
  | array element =>
    cases value <;> simp only [Catalog.coerce, reduceCtorEq] at fits
    · exact absurd rfl present
    · exact ⟨_, rfl⟩

/-- What the place and the parameters of a member promise to its host function. -/
def promises (typeName : String) (kind : MemberKind) (params : List TypeRef) : List Demand :=
  (if kind = .method then [Demand.ofClass typeName] else []) ++ params.map Demand.ofType

/-- The host function of a member is safe by what is promised to it. -/
def SafeMember (key : MemberKey) (member : Member) : Prop :=
  Safe (promises key.typeName member.kind member.signature.params) member.run

/-- The signatures of the library, with what their parameters promise. -/
def signatures : List (String × List Demand) :=
  [("()", []), ("(String)", [.text]), ("(Object)", [.something]), ("(CharSequence)", [.something]),
    ("(Collection)", [.list]), ("(int)", [.whole .int]), ("(int, int)", [.whole .int, .whole .int]),
    ("(int, Object)", [.whole .int, .something]), ("(long, long)", [.whole .long, .whole .long]),
    ("(double)", [.double]), ("(double, double)", [.double, .double]),
    ("(CharSequence, Object...)", [.something, .array])]

theorem parse_signatures : ∀ entry ∈ signatures,
    ((typesOnly.parseSignature entry.1).toOption.map (·.params.map Demand.ofType)) =
      some entry.2 := by
  decide +kernel

/-- What is promised to a member of the library. -/
def MemberSpec.promises (spec : MemberSpec) : Option (List Demand) :=
  (signatures.lookup spec.signature).map
    ((if spec.kind = .method then [Demand.ofClass spec.typeName] else []) ++ ·)

/-- The host function of a member of the library is safe by what is promised to it. -/
def MemberSpec.Safe (spec : MemberSpec) : Prop :=
  ∃ demands, spec.promises = some demands ∧ Host.Safe demands spec.run

/-- Members are safe by what is promised to each of them. -/
theorem MemberSpec.safe_of_forall₂ {specs : List MemberSpec} {demands : List (List Demand)}
    (safe : List.Forall₂ (fun spec demands => Host.Safe demands spec.run) specs demands)
    (promised : specs.map MemberSpec.promises = demands.map some) : ∀ spec ∈ specs, spec.Safe := by
  induction safe with
  | nil => exact List.forall_mem_nil _
  | cons first _ ih =>
    obtain ⟨here, others⟩ := List.cons.inj promised
    exact List.forall_mem_cons.2 ⟨⟨_, here, first⟩, ih others⟩

/-- What is promised does not depend on how the signature is parsed. -/
theorem MemberSpec.Safe.member {spec : MemberSpec} (safe : spec.Safe) {signature : Signature}
    (parsed : typesOnly.parseSignature spec.signature = .ok signature) :
    SafeMember ⟨spec.typeName, spec.name⟩ ⟨spec.kind, signature, spec.run⟩ := by
  obtain ⟨demands, promised, runs⟩ := safe
  obtain ⟨params, found, rfl⟩ := Option.map_eq_some_iff.1 promised
  obtain ⟨before, after, table, -⟩ := List.lookup_eq_some_iff.1 found
  have known := parse_signatures (spec.signature, params) (by simp [table])
  rw [parsed] at known
  obtain rfl : signature.params.map Demand.ofType = params := Option.some.inj known
  exact runs

theorem Object.safe_members : ∀ spec ∈ members, spec.Safe :=
  MemberSpec.safe_of_forall₂ (.cons safe_make <| .cons (safe_toText .something) <|
    .cons (safe_equals .something) .nil) (by decide +kernel)

theorem Strings.safe_members : ∀ spec ∈ members, spec.Safe :=
  MemberSpec.safe_of_forall₂ (.cons safe_make <| .cons safe_length <|
    .cons (safe_mapped Alphabet.spells_upperCase) <|
    .cons (safe_mapped Alphabet.spells_lowerCase) <| .cons safe_trim <| .cons safe_concat <|
    .cons safe_charAt <| .cons safe_substringFrom <| .cons safe_substring <|
    .cons safe_contains <| .cons safe_isEmpty <| .cons safe_repeatText <| .cons safe_valueOf <|
    .cons safe_join .nil) (by decide +kernel)

theorem Numbers.safe_members : ∀ spec ∈ members, spec.Safe :=
  have ints := safe_onTwo finds_intArgument fun _ => .number _
  have longs := safe_onTwo finds_longArgument fun _ => .number _
  have doubles := safe_onTwo finds_doubleArgument fun _ => .number _
  MemberSpec.safe_of_forall₂ (.cons (safe_parseWhole (by decide)) <| .cons safe_intIdentity <|
    .cons (safe_parseWhole (by decide)) <| .cons safe_intText <| .cons safe_intSum <|
    .cons (safe_parseWhole (by decide)) <| .cons safe_parseDouble <| .cons (safe_wholeOf .int) <|
    .cons (safe_wholeOf .long) <| .cons safe_doubleOf <| .cons (ints max) <|
    .cons (longs max) <| .cons (doubles greater) <| .cons (ints min) <|
    .cons (longs min) <| .cons (doubles lesser) <| .cons safe_absInt <|
    .cons (safe_onDouble Double.abs) <| .cons (doubles power) <|
    .cons (safe_onDouble squareRoot) .nil) (by decide +kernel)

theorem Builder.safe_members : ∀ spec ∈ members, spec.Safe :=
  MemberSpec.safe_of_forall₂ (.cons safe_makeEmpty <| .cons safe_make <| .cons safe_append <|
    .cons safe_length <| .cons safe_reverse <| .cons (Object.safe_toText .builder) .nil)
    (by decide +kernel)

theorem Lists.safe_members : ∀ spec ∈ members, spec.Safe :=
  MemberSpec.safe_of_forall₂ (.cons safe_add <| .cons safe_size <| .cons safe_isEmpty <|
    .cons safe_contains <| .cons safe_clear <| .cons safe_insert <| .cons safe_get <|
    .cons safe_set <| .cons safe_remove <| .cons (safe_makeEmpty (.inl rfl)) <|
    .cons safe_makeSized <| .cons safe_copy <| .cons (safe_makeEmpty (.inr rfl)) <|
    .cons safe_addFirst .nil) (by decide +kernel)

theorem Annotations.safe_members : ∀ spec ∈ members, spec.Safe :=
  MemberSpec.safe_of_forall₂ (.cons safe_makeInformation <| .cons safe_makeContains <|
    .cons safe_makeLineCount .nil) (by decide +kernel)

theorem safe_members : ∀ spec ∈ members, spec.Safe := by
  simp only [members, List.forall_mem_append]
  exact ⟨⟨⟨⟨⟨Object.safe_members, Strings.safe_members⟩, Numbers.safe_members⟩,
    Builder.safe_members⟩, Lists.safe_members⟩, Annotations.safe_members⟩

/-- The catalog of the library has the types of the library, and its members are safe. -/
theorem safe_catalog {catalog : Catalog} (built : Host.catalog = .ok catalog) :
    catalog.Each SafeMember ∧ catalog.hierarchy = typesOnly.hierarchy :=
  each_of_catalog (fun spec member _ parsed => (safe_members spec member).member parsed) built

end Colloquy.Host
