import Colloquy.Proofs.Code.LongestMatch

/-!
# Declarations and their written forms

A declaration may be written with any blanks between its parts.  However it is written, it is one
token, and its parts are read back from the text.
-/

namespace Colloquy.Lexer

open Text (isWordChar)

/-- The name of an operation in a declaration. -/
structure OperationName where
  /-- The characters of the name. -/
  chars : List Char
  /-- There is one at least. -/
  nonempty : chars ≠ []
  /-- They are letters, digits, underscores and dollar signs. -/
  parts : ∀ c ∈ chars, isWordChar c ∨ c = '$'

namespace OperationName

variable (operation : OperationName)

theorem undotted : '.' ∉ operation.chars := by
  intro member
  rcases operation.parts _ member with part | same
  · cases part
  · cases same

theorem isTypeChar_of_mem : ∀ c ∈ operation.chars, isTypeChar c := by
  intro c member
  rcases operation.parts c member with part | rfl
  · simp [isTypeChar, part]
  · decide

end OperationName

/-- What a declaration is about. -/
inductive Subject where
  | constructor (typeName : Name isTypeChar)
  | static (typeName : Name isTypeChar) (operation : OperationName)
  | virtual (typeName : Name isTypeChar) (operation : OperationName)

namespace Subject

/-- The kind of the declaration. -/
def kind : Subject → DeclarationKind
  | constructor _ => .constructor
  | static _ _ => .static
  | virtual _ _ => .virtual

/-- The type. -/
def typeName : Subject → Name isTypeChar
  | constructor typeName | static typeName _ | virtual typeName _ => typeName

/-- The operation, none for a constructor. -/
def operation? : Subject → Option OperationName
  | constructor _ => none
  | static _ operation | virtual _ operation => some operation

/-- The target as it is written: `T` or `T.op`. -/
def target (subject : Subject) : Name isTypeChar where
  first := subject.typeName.first
  others := subject.typeName.others ++
    subject.operation?.elim [] fun operation => '.' :: operation.chars
  starts := subject.typeName.starts
  parts := by
    have behind : ∀ c ∈ subject.operation?.elim [] fun operation => '.' :: operation.chars,
        isTypeChar c := by
      cases subject.operation? with
      | none => simp
      | some operation => exact List.forall_mem_cons.2 ⟨by decide, operation.isTypeChar_of_mem⟩
    exact List.forall_mem_append.2 ⟨subject.typeName.parts, behind⟩

end Subject

/-- A declaration as it may be written. -/
structure Written where
  /-- What is declared. -/
  subject : Subject
  /-- What stands between the keyword and the target. -/
  beforeTarget : Gap
  /-- The keyword and the target are apart. -/
  apart : beforeTarget.chars ≠ []
  /-- What stands before the parameters. -/
  beforeParams : Gap
  /-- The parameters. -/
  params : Bracketed
  /-- The narrowed signature, if there is one. -/
  narrowed : Option Narrowed

namespace Written

variable (written : Written)

/-- The statement that is written. -/
def statement : Registration where
  kind := written.subject.kind
  beforeTarget := written.beforeTarget
  apart := written.apart
  target := written.subject.target
  beforeParams := written.beforeParams
  params := written.params
  narrowed := written.narrowed

/-- The declaration that is meant: nothing is left of the blanks before its parts. -/
def declaration : Declaration where
  kind := written.subject.kind
  typeName := String.ofList written.subject.typeName.chars
  operation := written.subject.operation?.map fun operation => String.ofList operation.chars
  params := String.ofList written.params.chars
  narrowed := written.narrowed.map fun narrowed => String.ofList narrowed.signature

/-- The target of an operation has the type before its last dot, and the operation behind it. -/
theorem declares : written.statement.Declares (some written.declaration) := by
  obtain ⟨subject, beforeTarget, apart, beforeParams, params, narrowed⟩ := written
  cases subject with
  | constructor typeName =>
    have whole : typeName.chars = (Subject.constructor typeName).target.chars := by
      simp [Subject.target, Subject.typeName, Subject.operation?, Name.chars]
    rw [declaration, Subject.typeName, whole]
    exact .constructor rfl
  | static typeName operation => exact .operation (by rintro ⟨⟩) rfl operation.undotted
  | virtual typeName operation => exact .operation (by rintro ⟨⟩) rfl operation.undotted

end Written

/-- However a declaration is written, it is one token, with the parts that were written. -/
theorem lexemes_written (written : Written) :
    lexemes written.statement.chars =
      [⟨written.statement.chars, some (.declaration written.declaration)⟩] :=
  lexemes_spelled (.declaration written.statement written.declares)

/-- A narrowed operation with blanks wherever they may stand. -/
def spacedAdd : Written where
  subject := .virtual ⟨'L', "ist".toList, by decide, List.all_eq_true.1 (by decide)⟩
    ⟨"add".toList, by decide, fun c member => .inl (List.all_eq_true.1 (by decide) c member)⟩
  beforeTarget := ⟨" \t".toList, List.all_eq_true.1 (by decide)⟩
  apart := by decide
  beforeParams := space
  params := ⟨"Object".toList, by decide, by decide⟩
  narrowed := some
    { beforeArrow := space
      beforeParams := space
      params := ⟨"String".toList, by decide, by decide⟩
      returned := some
        ⟨space, space, ⟨'b', "oolean".toList, by decide, List.all_eq_true.1 (by decide)⟩⟩ }
where
  space : Gap := ⟨[' '], List.all_eq_true.1 (by decide)⟩

/-- The blanks before the signatures are left out, and those inside the narrowed one stay. -/
theorem lexemes_spacedAdd :
    (lexemes "virtual \tList.add (Object) -> (String) : boolean".toList).map (·.token?) =
      [some (.declaration
        ⟨.virtual, "List", some "add", "(Object)", some "(String) : boolean"⟩)] := by
  have spelled : "virtual \tList.add (Object) -> (String) : boolean".toList =
      spacedAdd.statement.chars := by decide
  have declares : spacedAdd.declaration =
      ⟨.virtual, "List", some "add", "(Object)", some "(String) : boolean"⟩ := by decide
  rw [spelled, lexemes_written spacedAdd, declares]
  rfl

end Colloquy.Lexer
