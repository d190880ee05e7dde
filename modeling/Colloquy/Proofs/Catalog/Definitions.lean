import Colloquy.Proofs.Catalog.Members

/-!
# The last definition counts

Types are declared and members defined one after another, and some definitions are refused.  The
member that is found in a role and with parameters is that of the last definition that was accepted
there.  Names are resolved when a member is defined, so it does not matter what they would stand for
later.
-/

namespace Colloquy.Catalog

/-- What a member is defined as. -/
inductive Role where
  | constructor (typeName : String)
  | static (typeName name : String)
  | method (typeName name : String)
deriving DecidableEq

namespace Role

/-- The kind of the member. -/
def kind : Role → MemberKind
  | constructor _ => .constructor
  | static _ _ => .static
  | method _ _ => .method

/-- Where the member is filed. -/
def key : Role → MemberKey
  | constructor typeName => ⟨typeName, none⟩
  | static typeName name | method typeName name => ⟨typeName, some name⟩

/-- No two roles share their members. -/
theorem eq_iff {role other : Role} :
    role = other ↔ role.kind = other.kind ∧ role.key = other.key := by
  cases role <;> cases other <;> simp [kind, key]

end Role

/-- A change to a catalog. -/
inductive Change where
  | declareType (name : String) (supertypes : List String)
  | define (role : Role) (signature : String) (run : Native)

/-- Makes a change, which may be refused. -/
def attempt : Change → Attempt Unit
  | .declareType name supertypes => modify (·.declareType name supertypes)
  | .define role signature run => addMember role.kind role.key signature run

/-- The catalog after a change, whether it was refused or not. -/
def change (catalog : Catalog) (next : Change) : Catalog := ((attempt next).run.run catalog).2

/-- The catalog after one change after another. -/
def changeAll (catalog : Catalog) (changes : List Change) : Catalog := changes.foldl change catalog

/-- A definition that was accepted. -/
structure Definition where
  /-- What the member is defined as. -/
  role : Role
  /-- The parameters, with their names resolved at that time. -/
  signature : Signature
  /-- The function. -/
  run : Native

namespace Definition

/-- The member that is defined. -/
def member (definition : Definition) : Member :=
  ⟨definition.role.kind, definition.signature, definition.run⟩

/-- The definition is of a role and has the same parameters. -/
def answers (role : Role) (params : Signature) (definition : Definition) : Bool :=
  definition.role = role && definition.signature.sameParams params

/-- The last one of the definitions of a role with the same parameters. -/
def last? (definitions : List Definition) (role : Role) (params : Signature) :
    Option Definition :=
  (definitions.filter (answers role params)).getLast?

theorem last?_append (earlier later : List Definition) (role : Role) (params : Signature) :
    last? (earlier ++ later) role params =
      (last? later role params).or (last? earlier role params) := by
  rw [last?, List.filter_append, List.getLast?_append]
  rfl

theorem last?_toList (definition? : Option Definition) (role : Role) (params : Signature) :
    last? definition?.toList role params = definition?.filter (answers role params) := by
  cases definition? with
  | none => rfl
  | some definition =>
    cases same : answers role params definition <;> simp [last?, same, Option.filter]

end Definition

open Definition (answers last?)

/-- The definition that a change makes, if it is accepted. -/
def accepted? (catalog : Catalog) : Change → Option Definition
  | .declareType _ _ => none
  | .define role text run =>
    match catalog.parseSignature text, ((attempt (.define role text run)).run.run catalog).1 with
    | .ok signature, .ok _ => some ⟨role, signature, run⟩
    | _, _ => none

/-- The accepted definitions in order. -/
def accepted (catalog : Catalog) : List Change → List Definition
  | [] => []
  | next :: changes => (catalog.accepted? next).toList ++ (catalog.change next).accepted changes

variable {catalog : Catalog}

theorem fits_iff {member : Member} {kind : MemberKind} {params : Signature} :
    member.fits kind params ↔ member.kind = kind ∧
      member.signature.params = params.params ∧ member.signature.variadic = params.variadic := by
  simp [Member.fits, Signature.sameParams]

/-- A member takes the place of those with its kind and parameters, and is found instead of them. -/
theorem find?_replace (members : List Member) (new : Member) (kind : MemberKind)
    (params : Signature) :
    ((members.filter fun member => !member.fits new.kind new.signature) ++ [new]).find?
        (·.fits kind params) =
      if new.fits kind params then some new else members.find? (·.fits kind params) := by
  rw [List.find?_append]
  split
  · rename_i fits
    obtain ⟨sameKind, sameParams, sameVariadic⟩ := fits_iff.1 fits
    have gone : (members.filter fun member => !member.fits new.kind new.signature).find?
        (·.fits kind params) = none := by
      refine List.find?_eq_none.2 fun member kept fits => ?_
      rw [fits_iff, ← sameKind, ← sameParams, ← sameVariadic, ← fits_iff] at fits
      simpa [fits] using (List.mem_filter.1 kept).2
    simp [gone, fits]
  · rename_i apart
    have others (member : Member) (fits : member.fits kind params) :
        member.fits new.kind new.signature = false := by
      refine Bool.eq_false_iff.2 fun fitsNew => apart ?_
      obtain ⟨sameKind, sameParams, sameVariadic⟩ := fits_iff.1 fitsNew
      rwa [fits_iff, ← sameKind, ← sameParams, ← sameVariadic, ← fits_iff]
    have kept : (members.filter fun member => !member.fits new.kind new.signature).find?
        (·.fits kind params) = members.find? (·.fits kind params) := by
      rw [List.find?_filter]
      congr 1
      funext member
      cases fits : member.fits kind params <;> simp [others member, fits]
    simp [kept, apart]

/-- A filed member is found by its parameters, and all others are found as before. -/
theorem findExact?_file (catalog : Catalog) (definition : Definition) (role : Role)
    (params : Signature) :
    (catalog.file definition.role.key definition.member).findExact? role.kind role.key params =
      if answers role params definition then some definition.member
      else catalog.findExact? role.kind role.key params := by
  rw [findExact?, findExact?, membersAt_file]
  by_cases filed : role.key = definition.role.key
  · have roles : definition.role = role ↔ definition.role.kind = role.kind := by
      rw [Role.eq_iff, filed, and_iff_left rfl]
    have answered : answers role params definition =
        definition.member.fits role.kind params := by
      rw [answers, decide_eq_decide.2 roles]
      rfl
    rw [if_pos filed, filed, answered]
    exact find?_replace _ definition.member _ _
  · have apart : definition.role ≠ role := fun same => filed (same ▸ rfl)
    simp [filed, answers, apart]

/-- A change is refused without a trace, or it is a declaration, or it files the member that it
defines. -/
theorem change_cases (catalog : Catalog) (next : Change) :
    (∃ error, ((attempt next).run.run catalog).1 = .error error ∧
      catalog.accepted? next = none ∧ catalog.change next = catalog) ∨
    (∃ name supertypes, next = .declareType name supertypes) ∨
    ∃ definition, ((attempt next).run.run catalog).1 = .ok () ∧
      catalog.accepted? next = some definition ∧
      catalog.change next = catalog.file definition.role.key definition.member := by
  cases next with
  | declareType name supertypes => exact .inr (.inl ⟨name, supertypes, rfl⟩)
  | define role text run =>
    rw [change, accepted?, attempt, addMember_run]
    by_cases declared : catalog.hierarchy.contains role.key.typeName
    · rw [if_pos declared]
      cases catalog.parseSignature text with
      | error error => exact .inl ⟨error, rfl, rfl, rfl⟩
      | ok signature => exact .inr (.inr ⟨⟨role, signature, run⟩, rfl, rfl, rfl⟩)
    · rw [if_neg declared]
      cases catalog.parseSignature text with
      | error error => exact .inl ⟨_, rfl, rfl, rfl⟩
      | ok signature => exact .inl ⟨_, rfl, rfl, rfl⟩

/-- A refused change leaves the catalog as it was. -/
theorem change_of_refused {next : Change} {error : RuntimeError}
    (refused : ((attempt next).run.run catalog).1 = .error error) :
    catalog.change next = catalog := by
  rcases catalog.change_cases next with ⟨_, -, -, same⟩ | ⟨_, _, rfl⟩ | ⟨_, accepts, -, -⟩
  · exact same
  · cases refused
  · rw [accepts] at refused
    cases refused

/-- A change leaves every member to be found as before, but for the one that it defines. -/
theorem findExact?_change (catalog : Catalog) (next : Change) (role : Role)
    (params : Signature) :
    (catalog.change next).findExact? role.kind role.key params =
      (((catalog.accepted? next).filter (answers role params)).map Definition.member).or
        (catalog.findExact? role.kind role.key params) := by
  rcases catalog.change_cases next with
    ⟨_, -, none, same⟩ | ⟨name, supertypes, rfl⟩ | ⟨definition, -, some, filed⟩
  · rw [none, same]
    rfl
  · rfl
  · rw [some, filed, findExact?_file]
    cases same : answers role params definition <;> simp [Option.filter, same]

/-- A member is found as it was defined last, or else as it was found before. -/
theorem findExact?_changeAll (catalog : Catalog) (changes : List Change) (role : Role)
    (params : Signature) :
    (catalog.changeAll changes).findExact? role.kind role.key params =
      ((last? (catalog.accepted changes) role params).map Definition.member).or
        (catalog.findExact? role.kind role.key params) := by
  induction changes generalizing catalog with
  | nil => rfl
  | cons next changes ih =>
    have step : catalog.changeAll (next :: changes) = (catalog.change next).changeAll changes := rfl
    rw [step, ih, accepted, Definition.last?_append, Definition.last?_toList, findExact?_change]
    cases last? ((catalog.change next).accepted changes) role params with
    | none => simp
    | some definition => simp

/-- Whatever types are declared and members defined, the constructor and the static member that are
found are those of the last accepted definition of that kind, type, name and parameters, and there
are none if there was no such definition.  A static and an instance member stand side by side, and a
change that is refused leaves everything as it was. -/
theorem find_changeAll (changes : List Change) :
    let definitions := ofValues.accepted changes
    let catalog := ofValues.changeAll changes
    (∀ typeName params, catalog.findConstructor? typeName params =
      (last? definitions (.constructor typeName) params).map Definition.member) ∧
    (∀ typeName name params, catalog.findStatic? typeName name params =
      (last? definitions (.static typeName name) params).map Definition.member) ∧
    (∀ typeName name params static method,
      last? definitions (.static typeName name) params = some static →
      last? definitions (.method typeName name) params = some method →
      catalog.findStatic? typeName name params = some static.member ∧
        catalog.findInstance? typeName name params = some method.member) ∧
    ∀ next error, ((attempt next).run.run catalog).1 = .error error →
      catalog.change next = catalog := by
  intro definitions catalog
  have found (role : Role) (params : Signature) :
      catalog.findExact? role.kind role.key params =
        (last? definitions role params).map Definition.member := by
    have run := ofValues.findExact?_changeAll changes role params
    have empty : ofValues.findExact? role.kind role.key params = none := rfl
    rwa [empty, Option.or_none] at run
  refine ⟨fun typeName => found (.constructor typeName),
    fun typeName name => found (.static typeName name), ?_, ?_⟩
  · intro typeName name params static method lastStatic lastMethod
    have foundStatic := found (.static typeName name) params
    have foundMethod := found (.method typeName name) params
    rw [lastStatic, Option.map_some] at foundStatic
    rw [lastMethod, Option.map_some] at foundMethod
    -- the own members of a type come before those of its ancestors
    have own : catalog.findExact? .method ⟨typeName, some name⟩ params = some method.member :=
      foundMethod
    exact ⟨foundStatic, by rw [findInstance?, List.findSome?_cons, own]⟩
  · exact fun next error refused => change_of_refused refused

/-- What ducks as a whole would say to a goose, where there are no geese. -/
def hiss : Change := .define (.static "Duck" "speak") "(Goose)" fun _ => return .str "hiss"

/-- Ducks speak on their own and as a whole.  What ducks as a whole say is defined again. -/
def ducks : List Change :=
  [.declareType "Duck" [],
    .define (.static "Duck" "speak") "()" fun _ => return .str "quack",
    .define (.method "Duck" "speak") "()" fun _ => return .str "peep",
    hiss,
    .define (.static "Duck" "speak") "(): String" fun _ => return .str "quack quack"]

/-- What ducks as a whole say is what was defined last, what a duck says is found beside it, and the
refused definition changed nothing. -/
theorem find_ducks :
    let params : Signature := ⟨[], false, none⟩
    let all : Definition := ⟨.static "Duck" "speak", ⟨[], false, some (.named TypeName.string)⟩,
      fun _ => return .str "quack quack"⟩
    let one : Definition := ⟨.method "Duck" "speak", params, fun _ => return .str "peep"⟩
    let refusal : RuntimeError := .malformedSignature "(Goose)" (.unresolved "Goose")
    let catalog := ofValues.changeAll ducks
    last? (ofValues.accepted ducks) (.static "Duck" "speak") params = some all ∧
      last? (ofValues.accepted ducks) (.method "Duck" "speak") params = some one ∧
      catalog.findStatic? "Duck" "speak" params = some all.member ∧
      catalog.findInstance? "Duck" "speak" params = some one.member ∧
      ((attempt hiss).run.run catalog).1 = .error refusal ∧ catalog.change hiss = catalog := by
  intro params all one refusal catalog
  have lastAll : last? (ofValues.accepted ducks) (.static "Duck" "speak") params = some all := rfl
  have lastOne : last? (ofValues.accepted ducks) (.method "Duck" "speak") params = some one := rfl
  have refused : ((attempt hiss).run.run catalog).1 = .error refusal := rfl
  obtain ⟨-, -, both, same⟩ := find_changeAll ducks
  have found := both "Duck" "speak" params all one lastAll lastOne
  exact ⟨lastAll, lastOne, found.1, found.2, refused, same hiss refusal refused⟩

end Colloquy.Catalog
