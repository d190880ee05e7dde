import Colloquy.Proofs.Code.Grammar
import Colloquy.Proofs.Text.Trim

/-!
# The parts of a declaration

A registration statement is split once more to find its parts.  However it is written, these are
the parts that it was written from.
-/

namespace Colloquy.Lexer

open Text (isSpacing)

theorem Gap.allBlank (gap : Gap) : Text.allBlank gap.chars := by
  refine List.all_eq_true.2 fun c member => ?_
  have space := gap.spacing c member
  simp only [isSpacing, Bool.or_eq_true, beq_iff_eq] at space
  rcases space with rfl | rfl <;> decide

theorem not_isBlank_of_isReturnChar {c : Char} (part : isReturnChar c) :
    Text.isBlank c = false := by
  simp only [isReturnChar, isTypeChar, Bool.or_eq_true, beq_iff_eq] at part
  rcases part with (((part | rfl) | rfl) | rfl) | rfl
  · exact Text.not_isBlank_of_isWordChar part
  all_goals decide

theorem isReturnChar_of_isTypeChar {c : Char} (part : isTypeChar c) : isReturnChar c := by
  simp [isReturnChar, part]

section Name

variable {isPart : Char → Bool} (within : ∀ c, isPart c → isReturnChar c)
include within

/-- There are no blanks in a name. -/
theorem Name.not_isBlank_of_mem (name : Name isPart) : ∀ c ∈ name.chars, Text.isBlank c = false :=
  List.forall_mem_cons.2
    ⟨Text.not_isBlank_of_isWordChar (Text.isWordChar_of_isNameStart name.starts),
      fun c member => not_isBlank_of_isReturnChar (within c (name.parts c member))⟩

end Name

/-- Blanks around a target are trimmed. -/
theorem trim_target (before : Gap) (target : Name isTypeChar) (after : Gap) :
    Text.trim (before.chars ++ (target.chars ++ after.chars)) = target.chars := by
  have visible := target.not_isBlank_of_mem fun _ => isReturnChar_of_isTypeChar
  exact Text.trim_eq_of_append before.allBlank after.allBlank
    (fun c first => visible c (List.mem_of_mem_head? first))
    (fun c final => visible c (List.mem_of_mem_getLast? final))

namespace Narrowed

/-- A signature ends with a closing bracket, or with a character of a return type. -/
theorem not_isBlank_getLast (narrowed : Narrowed) :
    ∀ c ∈ narrowed.signature.getLast?, Text.isBlank c = false := by
  intro c final
  cases given : narrowed.returned with
  | none =>
    have whole : narrowed.signature = '(' :: narrowed.params.inner ++ [')'] := by
      simp [signature, given, Bracketed.chars]
    rw [whole, List.getLast?_concat] at final
    cases final
    decide
  | some returned =>
    have whole : narrowed.signature = (narrowed.params.chars ++ returned.beforeColon.chars ++
        ':' :: returned.beforeType.chars) ++ returned.typeName.chars := by
      simp [signature, given, Return.chars]
    have nonempty : returned.typeName.chars ≠ [] := List.cons_ne_nil _ _
    rw [whole, List.getLast?_append_of_ne_nil _ nonempty] at final
    exact returned.typeName.not_isBlank_of_mem (fun _ => id) c (List.mem_of_mem_getLast? final)

/-- A narrowed signature is read behind its arrow. -/
theorem signature_of_trim (narrowed : Narrowed) :
    (after? "->" (Text.trim narrowed.chars)).map Text.trim = some narrowed.signature := by
  have opening : ∀ c ∈ narrowed.signature.head?, Text.isBlank c = false := by
    rintro c ⟨⟩
    decide
  have closing := narrowed.not_isBlank_getLast
  have arrow : Text.trim narrowed.chars =
      "->".toList ++ (narrowed.beforeParams.chars ++ narrowed.signature) := by
    rw [chars, Text.trim_of_allBlank_append narrowed.beforeArrow.allBlank]
    refine Text.trim_eq_self (by rintro c ⟨⟩; decide) fun c final => closing c ?_
    have nonempty : narrowed.signature ≠ [] := by simp [signature, Bracketed.chars]
    rwa [← List.cons_append, ← List.cons_append, List.getLast?_append_of_ne_nil _ nonempty] at final
  rw [arrow, after?_append, Option.map_some,
    Text.trim_of_allBlank_append narrowed.beforeParams.allBlank, Text.trim_eq_self opening closing]

end Narrowed

theorem not_mem_of_isPart {isPart : Char → Bool} {c : Char} {chars : List Char}
    (parts : ∀ d ∈ chars, isPart d) (other : isPart c = false) : c ∉ chars := fun member => by
  rw [parts c member] at other
  cases other

/-- The first blank of a statement is behind its keyword. -/
theorem cutAtFirst?_keyword (kind : DeclarationKind) (gap : Gap) (apart : gap.chars ≠ [])
    (rest : List Char) :
    ∃ later : Gap, Text.cutAtFirst? isSpacing (kind.keyword.toList ++ (gap.chars ++ rest)) =
      some (kind.keyword.toList, later.chars ++ rest) := by
  obtain ⟨chars, spacing⟩ := gap
  obtain ⟨space, later, rfl⟩ := List.exists_cons_of_ne_nil apart
  obtain ⟨first, others⟩ := List.forall_mem_cons.1 spacing
  have solid : kind.keyword.toList.all fun c => !isSpacing c := by cases kind <;> decide
  have unspaced : ∀ c ∈ kind.keyword.toList, isSpacing c = false := by simpa using solid
  exact ⟨⟨later, others⟩, Text.cutAtFirst?_append unspaced first (later ++ rest)⟩

/-- The first brackets of a statement are those around its parameters. -/
theorem cutAt?_params (before after : Gap) (target : Name isTypeChar) (params : Bracketed)
    (rest : List Char) :
    Text.cutAt? ['('] (before.chars ++ (target.chars ++ (after.chars ++ (params.chars ++ rest)))) =
        some (before.chars ++ (target.chars ++ after.chars), params.inner ++ ')' :: rest) ∧
      Text.cutAt? [')'] (params.inner ++ ')' :: rest) = some (params.inner, rest) := by
  have ungapped (gap : Gap) : '(' ∉ gap.chars := not_mem_of_isPart gap.spacing (by decide)
  have unnamed : '(' ∉ target.chars := by
    refine List.not_mem_cons_of_ne_of_not_mem ?_ (not_mem_of_isPart target.parts (by decide))
    rintro same
    cases same ▸ target.starts
  refine ⟨Text.cutAt?_singleton_iff.2 ⟨by simp [Bracketed.chars], ?_⟩,
    Text.cutAt?_singleton_iff.2 ⟨rfl, params.unclosed⟩⟩
  simp [ungapped, unnamed]

/-- Split once more, a statement has the parts that it was written from. -/
theorem Registration.declared?_chars (statement : Registration) :
    declared? statement.chars =
      declaration? statement.kind statement.target.chars statement.params.chars
        (statement.narrowed.map Narrowed.signature) := by
  have known : DeclarationKind.all.find? (·.keyword.toList = statement.kind.keyword.toList) =
      some statement.kind := by
    cases statement.kind <;> decide
  have narrow : (after? "->" (Text.trim (statement.narrowed.elim [] Narrowed.chars))).map
      Text.trim = statement.narrowed.map Narrowed.signature := by
    cases statement.narrowed with
    | none => rfl
    | some narrowed => exact narrowed.signature_of_trim
  obtain ⟨later, first⟩ := cutAtFirst?_keyword statement.kind _ statement.apart
    (statement.target.chars ++ (statement.beforeParams.chars ++ (statement.params.chars ++
      statement.narrowed.elim [] Narrowed.chars)))
  obtain ⟨opening, closing⟩ := cutAt?_params later statement.beforeParams statement.target
    statement.params (statement.narrowed.elim [] Narrowed.chars)
  have trimmed := trim_target later statement.target statement.beforeParams
  simp only [declared?, chars, first, known, opening, closing, trimmed, narrow,
    Option.bind_eq_bind, Option.bind_some]
  rfl

theorem declaration?_of_ne {kind : DeclarationKind} (isOperation : kind ≠ .constructor)
    (target params : List Char) (narrowed : Option (List Char)) :
    declaration? kind target params narrowed =
      (Text.cutAtLast? '.' target).map fun (typeName, operation) =>
        ⟨kind, String.ofList typeName, some (String.ofList operation), String.ofList params,
          narrowed.map String.ofList⟩ := by
  cases kind with
  | constructor => exact absurd rfl isOperation
  | static | virtual => rfl

/-- What a statement declares is found in its text. -/
theorem Registration.declares_iff (statement : Registration) (declared : Option Declaration) :
    statement.Declares declared ↔ declared = declared? statement.chars := by
  have whole (typeName : List Char) (operation : Option (List Char)) :
      statement.declaration typeName operation =
        ⟨statement.kind, String.ofList typeName, operation.map String.ofList,
          String.ofList statement.params.chars,
          (statement.narrowed.map Narrowed.signature).map String.ofList⟩ := by
    simp [declaration, Function.comp_def]
  rw [declared?_chars]
  constructor
  · intro declares
    cases declares with
    | constructor isConstructor =>
      rw [whole, isConstructor]
      rfl
    | operation isOperation target undotted =>
      rw [declaration?_of_ne isOperation, Text.cutAtLast?_eq_some_iff.2 ⟨target, undotted⟩, whole]
      rfl
    | undotted isOperation undotted =>
      rw [declaration?_of_ne isOperation, Text.cutAtLast?_eq_none_iff.2 undotted]
      rfl
  · rintro rfl
    by_cases isConstructor : statement.kind = .constructor
    · have declares := Declares.constructor isConstructor
      rw [whole, isConstructor] at declares
      rwa [isConstructor]
    · rw [declaration?_of_ne isConstructor]
      cases cut : Text.cutAtLast? '.' statement.target.chars with
      | none => exact .undotted isConstructor (Text.cutAtLast?_eq_none_iff.1 cut)
      | some halves =>
        obtain ⟨target, undotted⟩ := Text.cutAtLast?_eq_some_iff.1 cut
        have declares := Declares.operation isConstructor target undotted
        rwa [whole] at declares

end Colloquy.Lexer
