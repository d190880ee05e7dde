import Colloquy.Proofs.Code.LongestMatch

/-!
# The operations of declarations

A constructor has no operation.  Any other declaration has a type and what stands behind the last
dot of its target, and without a dot it is no token.  So the operation is a name unless the target
ends with a dot, and then it is empty.
-/

namespace Colloquy

/-- A character that does not occur behind a cut ends the text if nothing is there. -/
theorem Text.getLast?_cut_iff {mark : Char} {before after : List Char} (absent : mark ∉ after) :
    (before ++ mark :: after).getLast? = some mark ↔ after = [] := by
  obtain rfl | ⟨front, last, rfl⟩ := List.eq_nil_or_concat after
  · simp
  · have other : last ≠ mark := by
      rintro rfl
      exact absent (by simp)
    have whole : before ++ mark :: front.concat last = (before ++ mark :: front) ++ [last] := by
      simp
    rw [whole, List.getLast?_concat]
    simp [other]

/-- A declaration names what is registered: a constructor has no operation, and anything else has a
type and an operation, whose name has no dot. -/
structure Declaration.Named (declaration : Declaration) : Prop where
  /-- Constructors, and nothing else, have no operation. -/
  operation_iff : declaration.operation = none ↔ declaration.kind = .constructor
  /-- There is a type, and the operation has a name. -/
  names : ∀ operation ∈ declaration.operation,
    declaration.typeName ≠ "" ∧ operation ≠ "" ∧ '.' ∉ operation.toList

namespace Lexer

namespace Registration

variable {statement : Registration} {declaration : Declaration} {declared : Option Declaration}

/-- The target has a type, a dot, and the name of an operation without a dot. -/
def NamesOperation (statement : Registration) : Prop :=
  ∃ typeName operation, statement.target.chars = typeName ++ '.' :: operation ∧
    operation ≠ [] ∧ '.' ∉ operation

/-- A target names an operation if it has a dot, but not at its end. -/
theorem namesOperation_iff :
    statement.NamesOperation ↔
      '.' ∈ statement.target.chars ∧ statement.target.chars.getLast? ≠ some '.' := by
  constructor
  · rintro ⟨typeName, operation, target, nonempty, undotted⟩
    rw [target, ne_eq, Text.getLast?_cut_iff undotted]
    exact ⟨by simp, nonempty⟩
  · rintro ⟨dotted, final⟩
    obtain ⟨⟨typeName, operation⟩, cut⟩ :=
      Option.ne_none_iff_exists'.1 (mt Text.cutAtLast?_eq_none_iff.1 (not_not.2 dotted))
    obtain ⟨target, undotted⟩ := Text.cutAtLast?_eq_some_iff.1 cut
    rw [target, ne_eq, Text.getLast?_cut_iff undotted] at final
    exact ⟨typeName, operation, target, final, undotted⟩

/-- A statement declares one thing, or nothing. -/
theorem exists_declares (statement : Registration) : ∃ declared, statement.Declares declared :=
  ⟨_, (statement.declares_iff _).2 rfl⟩

/-- Nothing is declared by a statement that registers an operation, but whose target has no dot. -/
theorem Declares.eq_none_iff (declares : statement.Declares declared) :
    declared = none ↔ statement.kind ≠ .constructor ∧ '.' ∉ statement.target.chars := by
  cases declares with
  | constructor isConstructor => simp [isConstructor]
  | operation _ target => simp [target]
  | undotted isOperation undotted => simp [isOperation, undotted]

/-- What a statement declares has the kind of the statement, and no operation if it is a
constructor. -/
theorem Declares.operation_iff (declares : statement.Declares (some declaration)) :
    declaration.kind = statement.kind ∧
      (declaration.operation = none ↔ declaration.kind = .constructor) := by
  generalize given : some declaration = declared at declares
  cases declares with
  | constructor isConstructor =>
    cases given
    simp [Registration.declaration, isConstructor]
  | operation isOperation =>
    cases given
    simp [Registration.declaration, isOperation]
  | undotted => cases given

/-- The type has a name since a target does not begin with a dot, and the operation has one unless
the target ends with a dot. -/
theorem Declares.names (declares : statement.Declares (some declaration)) :
    declaration.typeName ≠ "" ∧ ∀ operation ∈ declaration.operation, '.' ∉ operation.toList ∧
      (operation = "" ↔ statement.target.chars.getLast? = some '.') := by
  generalize given : some declaration = declared at declares
  cases declares with
  | constructor =>
    cases given
    simp [Registration.declaration, Name.chars]
  | @operation typeName operation _ target undotted =>
    cases given
    constructor
    · cases typeName with
      | nil =>
        have starts := statement.target.starts
        rw [(List.cons.inj target).1] at starts
        cases starts
      | cons c typeName => simp [Registration.declaration]
    · rintro _ ⟨⟩
      rw [String.toList_ofList, target, Text.getLast?_cut_iff undotted, String.ofList_eq_empty_iff]
      exact ⟨undotted, Iff.rfl⟩
  | undotted => cases given

end Registration

/-- A declaration is the token of a statement. -/
theorem Spells.exists_declares {slice : List Char} {declaration : Declaration}
    (spells : Spells slice (some (.declaration declaration))) :
    ∃ statement : Registration, slice = statement.chars ∧
      statement.Declares (some declaration) := by
  generalize given : some (Token.declaration declaration) = token? at spells
  cases spells with
  | @declaration statement declared declares =>
    obtain ⟨found, rfl, same⟩ := Option.map_eq_some_iff.1 given.symm
    cases same
    exact ⟨statement, rfl, declares⟩
  | mark marked =>
    cases given
    simp [marks] at marked
  | _ => cases given

/-- Each declaration of the text is named, and statements that name no operation, but are to
register one, are no tokens. -/
structure NamesOperations (text : List Char) : Prop where
  /-- The declarations are named. -/
  named : ∀ lexeme ∈ lexemes text, ∀ declaration,
    lexeme.token? = some (.declaration declaration) → declaration.Named
  /-- Without the name of an operation there is no token. -/
  refused : ∀ lexeme ∈ lexemes text, ∀ statement : Registration,
    lexeme.slice = statement.chars → statement.kind ≠ .constructor →
      ¬statement.NamesOperation → lexeme.token? = none

variable {text : List Char} {lexeme : Lexeme}

/-- The token of a statement is what it declares. -/
theorem token?_of_statement (member : lexeme ∈ lexemes text) {statement : Registration}
    {declared : Option Declaration} (written : lexeme.slice = statement.chars)
    (declares : statement.Declares declared) :
    lexeme.token? = declared.map .declaration := by
  have spells := (tokenizes_lexemes text).spells lexeme member
  rw [written] at spells
  exact spells.unique (.declaration statement declares)

/-- A declaration of the text is what a statement declares. -/
theorem declares_of_token? (member : lexeme ∈ lexemes text) {declaration : Declaration}
    (isDeclaration : lexeme.token? = some (.declaration declaration)) :
    ∃ statement : Registration, lexeme.slice = statement.chars ∧
      statement.Declares (some declaration) := by
  have spells := (tokenizes_lexemes text).spells lexeme member
  rw [isDeclaration] at spells
  exact spells.exists_declares

/-- A statement is no token if it is to register an operation and its target has no dot. -/
theorem token?_eq_none_iff (member : lexeme ∈ lexemes text) {statement : Registration}
    (written : lexeme.slice = statement.chars) :
    lexeme.token? = none ↔ statement.kind ≠ .constructor ∧ '.' ∉ statement.target.chars := by
  obtain ⟨declared, declares⟩ := statement.exists_declares
  rw [token?_of_statement member written declares, Option.map_eq_none_iff, declares.eq_none_iff]

/-- A declaration is named unless it registers an operation and its target ends with a dot. -/
theorem Registration.Declares.named {statement : Registration} {declaration : Declaration}
    (declares : statement.Declares (some declaration))
    (inner : statement.kind ≠ .constructor → statement.target.chars.getLast? ≠ some '.') :
    declaration.Named := by
  obtain ⟨kind, operation_iff⟩ := declares.operation_iff
  obtain ⟨typed, operations⟩ := declares.names
  refine ⟨operation_iff, fun operation isOperation => ?_⟩
  obtain ⟨undotted, empty_iff⟩ := operations operation isOperation
  have registers : statement.kind ≠ .constructor := by
    intro isConstructor
    rw [operation_iff.2 (kind.trans isConstructor)] at isOperation
    cases isOperation
  exact ⟨typed, mt empty_iff.1 (inner registers), undotted⟩

/-- In every text a declaration is a statement, it has a type, and it has an operation without a dot
unless it is a constructor; a statement is no token just in case it is to register an operation and
its target has no dot.  So operations have names exactly if no such target ends with a dot. -/
theorem namesOperations_iff (text : List Char) :
    (∀ lexeme ∈ lexemes text, ∀ declaration,
      lexeme.token? = some (.declaration declaration) →
        ∃ statement : Registration, lexeme.slice = statement.chars ∧
          declaration.kind = statement.kind ∧ declaration.typeName ≠ "" ∧
          (declaration.operation = none ↔ declaration.kind = .constructor) ∧
          ∀ operation ∈ declaration.operation, '.' ∉ operation.toList ∧
            (operation = "" ↔ statement.target.chars.getLast? = some '.')) ∧
    (∀ lexeme ∈ lexemes text, ∀ statement : Registration, lexeme.slice = statement.chars →
      (lexeme.token? = none ↔
        statement.kind ≠ .constructor ∧ '.' ∉ statement.target.chars)) ∧
    (NamesOperations text ↔ ∀ lexeme ∈ lexemes text, ∀ statement : Registration,
      lexeme.slice = statement.chars → statement.kind ≠ .constructor →
        statement.target.chars.getLast? ≠ some '.') := by
  refine ⟨fun lexeme member declaration isDeclaration => ?_,
    fun lexeme member statement written => token?_eq_none_iff member written, ?_, ?_⟩
  · obtain ⟨statement, written, declares⟩ := declares_of_token? member isDeclaration
    obtain ⟨kind, operation_iff⟩ := declares.operation_iff
    obtain ⟨typed, operations⟩ := declares.names
    exact ⟨statement, written, kind, typed, operation_iff, operations⟩
  · -- a target with a dot at its end declares an operation without a name
    intro named lexeme member statement written registers final
    have unnamed : ¬statement.NamesOperation := fun names =>
      (Registration.namesOperation_iff.1 names).2 final
    have refused := named.refused lexeme member statement written registers unnamed
    exact ((token?_eq_none_iff member written).1 refused).2 (List.mem_of_getLast? final)
  · intro within
    refine ⟨?_, ?_⟩
    · intro lexeme member declaration isDeclaration
      obtain ⟨statement, written, declares⟩ := declares_of_token? member isDeclaration
      exact declares.named (within lexeme member statement written)
    · intro lexeme member statement written registers unnamed
      refine (token?_eq_none_iff member written).2 ⟨registers, fun dotted => unnamed ?_⟩
      exact Registration.namesOperation_iff.2
        ⟨dotted, within lexeme member statement written registers⟩

/-- A target that ends with a dot has an operation without a name. -/
theorem lexemes_dot_at_end :
    lexemes "static Math.(int)".toList =
        [⟨"static Math.(int)".toList,
          some (.declaration ⟨.static, "Math", some "", "(int)", none⟩)⟩] ∧
      ¬NamesOperations "static Math.(int)".toList := by
  have found : lexemes "static Math.(int)".toList =
      [⟨"static Math.(int)".toList,
        some (.declaration ⟨.static, "Math", some "", "(int)", none⟩)⟩] := by decide +kernel
  refine ⟨found, fun named => ?_⟩
  obtain ⟨-, names⟩ := named.named _ (found ▸ List.mem_cons_self) _ rfl
  exact (names "" rfl).2.1 rfl

end Lexer

end Colloquy
