import Mathlib.Data.List.TakeWhile
import Colloquy.Code.Lexer
import Colloquy.Proofs.Text.Cut
import Colloquy.Proofs.Text.Word

/-!
# How tokens are written

The written forms of tokens, put together from gaps, names and brackets.  Each piece is read back
from the start of a text, whatever stands behind it.
-/

namespace Colloquy.Lexer

open Text (isWordChar isNameStart isSpacing)

/-- Spaces and tabs between two parts of a token. -/
structure Gap where
  /-- The spaces and tabs. -/
  chars : List Char
  /-- There is nothing else. -/
  spacing : ∀ c ∈ chars, isSpacing c

/-- A name: a letter or an underscore, and then characters of a class. -/
structure Name (isPart : Char → Bool) where
  /-- The first character. -/
  first : Char
  /-- The further characters. -/
  others : List Char
  /-- The first character may start a name. -/
  starts : isNameStart first
  /-- The further characters are of the class. -/
  parts : ∀ c ∈ others, isPart c

/-- The characters of a name. -/
def Name.chars {isPart : Char → Bool} (name : Name isPart) : List Char := name.first :: name.others

/-- Text between brackets on one line. -/
structure Bracketed where
  /-- The text between the brackets. -/
  inner : List Char
  /-- The first closing bracket is the one behind it. -/
  unclosed : ')' ∉ inner
  /-- It stays on its line. -/
  inLine : '\n' ∉ inner

/-- The text with its brackets. -/
def Bracketed.chars (text : Bracketed) : List Char := '(' :: text.inner ++ [')']

/-- A return type behind its colon. -/
structure Return where
  /-- What stands before the colon. -/
  beforeColon : Gap
  /-- What stands before the type. -/
  beforeType : Gap
  /-- The type. -/
  typeName : Name isReturnChar

/-- A return type as it is written: `: R`. -/
def Return.chars (returned : Return) : List Char :=
  returned.beforeColon.chars ++ ':' :: (returned.beforeType.chars ++ returned.typeName.chars)

/-- A narrowed signature behind its arrow. -/
structure Narrowed where
  /-- What stands before the arrow. -/
  beforeArrow : Gap
  /-- What stands before the signature. -/
  beforeParams : Gap
  /-- The parameters. -/
  params : Bracketed
  /-- The return type, if there is one. -/
  returned : Option Return

namespace Narrowed

/-- The signature from its opening bracket to its end. -/
def signature (narrowed : Narrowed) : List Char :=
  narrowed.params.chars ++ narrowed.returned.elim [] Return.chars

/-- A narrowed signature as it is written: `-> (..): R`. -/
def chars (narrowed : Narrowed) : List Char :=
  narrowed.beforeArrow.chars ++ '-' :: '>' :: (narrowed.beforeParams.chars ++ narrowed.signature)

end Narrowed

/-- A registration statement: a keyword, a target and signatures. -/
structure Registration where
  /-- What is registered. -/
  kind : DeclarationKind
  /-- What stands between the keyword and the target. -/
  beforeTarget : Gap
  /-- The keyword and the target are apart. -/
  apart : beforeTarget.chars ≠ []
  /-- The type, with the operation behind a dot if there is one. -/
  target : Name isTypeChar
  /-- What stands before the parameters. -/
  beforeParams : Gap
  /-- The parameters. -/
  params : Bracketed
  /-- The narrowed signature, if there is one. -/
  narrowed : Option Narrowed

namespace Registration

/-- A registration statement as it is written: `virtual T.op(..) -> (..): R`. -/
def chars (statement : Registration) : List Char :=
  statement.kind.keyword.toList ++ (statement.beforeTarget.chars ++ (statement.target.chars ++
    (statement.beforeParams.chars ++ (statement.params.chars ++
      statement.narrowed.elim [] Narrowed.chars))))

/-- The declaration of a type and an operation with the signatures of the statement. -/
def declaration (statement : Registration) (typeName : List Char) (operation : Option (List Char)) :
    Declaration where
  kind := statement.kind
  typeName := String.ofList typeName
  operation := operation.map String.ofList
  params := String.ofList statement.params.chars
  narrowed := statement.narrowed.map fun narrowed => String.ofList narrowed.signature

/-- What a statement declares: the target is the type of a constructor, and else it has the
operation behind its last dot.  Without a dot nothing is declared. -/
inductive Declares (statement : Registration) : Option Declaration → Prop
  | constructor : statement.kind = .constructor →
    Declares statement (some (statement.declaration statement.target.chars none))
  | operation {typeName operation : List Char} : statement.kind ≠ .constructor →
    statement.target.chars = typeName ++ '.' :: operation → '.' ∉ operation →
    Declares statement (some (statement.declaration typeName (some operation)))
  | undotted : statement.kind ≠ .constructor → '.' ∉ statement.target.chars →
    Declares statement none

end Registration

/-- The tokens that are one character each. -/
def marks : List (Char × Token) :=
  [(',', .comma), (')', .close), ('+', .plus), ('\n', .newLine)]

/-- A text is the written form of a token, or of no token. -/
inductive Spells : List Char → Option Token → Prop
  | importType (gap : Gap) (apart : gap.chars ≠ []) (typeName : Name isTypeChar) :
    Spells ("import".toList ++ (gap.chars ++ typeName.chars))
      (some (.importType (String.ofList typeName.chars)))
  | declaration (statement : Registration) {declared : Option Declaration}
    (declares : statement.Declares declared) :
    Spells statement.chars (declared.map .declaration)
  | call (gap : Gap) (operation : Name isWordChar) (beforeArgs : Gap) :
    Spells (".".toList ++ (gap.chars ++ (operation.chars ++ (beforeArgs.chars ++ "(".toList))))
      (some (.call (String.ofList operation.chars)))
  | new (gap : Gap) (apart : gap.chars ≠ []) (typeName : Name isTypeChar) (beforeArgs : Gap) :
    Spells ("new".toList ++ (gap.chars ++ (typeName.chars ++ (beforeArgs.chars ++ "(".toList))))
      (some (.new (String.ofList typeName.chars)))
  | assign (name : Name isWordChar) (beforeEquals : Gap) :
    Spells (name.chars ++ (beforeEquals.chars ++ "=".toList))
      (some (.assign (String.ofList name.chars)))
  | mark {c : Char} {token : Token} (marked : (c, token) ∈ marks) : Spells [c] (some token)
  | quoted {inner : List Char} (unquoted : '"' ∉ inner) (inLine : '\n' ∉ inner) :
    Spells ('"' :: inner ++ ['"']) (some (.quoted (String.ofList ('"' :: inner ++ ['"']))))
  | word {text : List Char} (nonempty : text ≠ []) (parts : ∀ c ∈ text, isWordChar c) :
    Spells text (some (.word (String.ofList text)))
  | space {text : List Char} (nonempty : text ≠ []) (parts : ∀ c ∈ text, isSpacing c) :
    Spells text (some (.space (String.ofList text)))
  | char {c : Char} (other : isOther c) : Spells [c] (some (.char (String.singleton c)))

/-! ## Reading pieces -/

theorem after?_append (word : String) (rest : List Char) :
    after? word (word.toList ++ rest) = some rest :=
  List.isPrefixOf?_eq_some_iff_append_eq.2 rfl

theorem append_of_after? {word : String} {text rest : List Char}
    (found : after? word text = some rest) : text = word.toList ++ rest :=
  (List.isPrefixOf?_eq_some_iff_append_eq.1 found).symm

section Gap

/-- The text does not go on with a space or a tab. -/
abbrev Solid (text : List Char) : Prop := ∀ c ∈ text.head?, isSpacing c = false

theorem skipSpacing_gap (gap : Gap) {rest : List Char} (solid : Solid rest) :
    skipSpacing (gap.chars ++ rest) = rest :=
  (Text.run_append_of_all gap.spacing solid).2

/-- A sign is found behind a gap. -/
theorem after?_gap {sign : String} (gap : Gap)
    (starts : sign.toList.head?.any fun c => !isSpacing c) (rest : List Char) :
    after? sign (skipSpacing (gap.chars ++ (sign.toList ++ rest))) = some rest := by
  have solid : Solid (sign.toList ++ rest) := by
    cases chars : sign.toList with
    | nil => simp [chars] at starts
    | cons c later =>
      rintro _ ⟨⟩
      simpa [chars] using starts
  rw [skipSpacing_gap gap solid, after?_append]

theorem exists_gap (text : List Char) : ∃ gap : Gap, text = gap.chars ++ skipSpacing text :=
  ⟨⟨text.takeWhile isSpacing, fun _ => List.mem_takeWhile_imp⟩,
    List.takeWhile_append_dropWhile.symm⟩

theorem gap_of_after? {sign : String} {text rest : List Char}
    (found : after? sign (skipSpacing text) = some rest) :
    ∃ gap : Gap, text = gap.chars ++ (sign.toList ++ rest) := by
  obtain ⟨gap, whole⟩ := exists_gap text
  exact ⟨gap, by rw [← append_of_after? found, ← whole]⟩

theorem afterSpacing?_gap (gap : Gap) (apart : gap.chars ≠ []) {rest : List Char}
    (solid : Solid rest) : afterSpacing? (gap.chars ++ rest) = some rest := by
  obtain ⟨chars, spacing⟩ := gap
  obtain ⟨c, chars, rfl⟩ := List.exists_cons_of_ne_nil apart
  obtain ⟨first, others⟩ := List.forall_mem_cons.1 spacing
  rw [List.cons_append, afterSpacing?, if_pos first, skipSpacing_gap ⟨chars, others⟩ solid]

theorem gap_of_afterSpacing? {text rest : List Char} (found : afterSpacing? text = some rest) :
    ∃ gap : Gap, gap.chars ≠ [] ∧ text = gap.chars ++ rest := by
  cases text with
  | nil => cases found
  | cons c text =>
    simp only [afterSpacing?, Option.ite_none_right_eq_some, Option.some.injEq] at found
    obtain ⟨first, rfl⟩ := found
    obtain ⟨gap, whole⟩ := exists_gap text
    exact ⟨⟨c :: gap.chars, List.forall_mem_cons.2 ⟨first, gap.spacing⟩⟩, by simp,
      congrArg (c :: ·) whole⟩

end Gap

section Name

variable {isPart : Char → Bool}

theorem solid_name (name : Name isPart) (rest : List Char) : Solid (name.chars ++ rest) := by
  rintro c ⟨⟩
  exact Text.not_isSpacing_of_isWordChar (Text.isWordChar_of_isNameStart name.starts)

/-- A name goes on as far as it can. -/
theorem name?_name (name : Name isPart) (rest : List Char) :
    name? isPart (name.chars ++ rest) =
      some (name.chars ++ rest.takeWhile isPart, rest.dropWhile isPart) := by
  rw [Name.chars, List.cons_append, name?, if_pos name.starts,
    List.takeWhile_append_of_pos name.parts, List.dropWhile_append_of_pos name.parts,
    List.cons_append]

/-- A name ends where what follows begins otherwise. -/
theorem name?_name_of_stops (name : Name isPart) {rest : List Char}
    (stops : ∀ c ∈ rest.head?, isPart c = false) :
    name? isPart (name.chars ++ rest) = some (name.chars, rest) := by
  obtain ⟨taken, left⟩ := @Text.run_append_of_all _ isPart [] rest (by simp) stops
  rw [List.nil_append] at taken left
  rw [name?_name, taken, left, List.append_nil]

/-- A gap, and what stands behind it, ends a run that has no blanks. -/
theorem stops_gap (gap : Gap) {rest : List Char} (apart : ∀ c, isSpacing c → isPart c = false)
    (stops : gap.chars = [] → ∀ c ∈ rest.head?, isPart c = false) :
    ∀ c ∈ (gap.chars ++ rest).head?, isPart c = false := by
  obtain ⟨chars, spacing⟩ := gap
  cases chars with
  | nil => exact stops rfl
  | cons d chars =>
    rintro c ⟨⟩
    exact apart d (spacing d (.head _))

theorem name?_gap (name : Name isPart) (gap : Gap) {rest : List Char}
    (apart : ∀ c, isSpacing c → isPart c = false) (stops : ∀ c ∈ rest.head?, isPart c = false) :
    name? isPart (name.chars ++ (gap.chars ++ rest)) = some (name.chars, gap.chars ++ rest) :=
  name?_name_of_stops name (stops_gap gap apart fun _ => stops)

theorem name_of_name? {text chars rest : List Char}
    (found : name? isPart text = some (chars, rest)) :
    ∃ name : Name isPart, name.chars = chars ∧ text = name.chars ++ rest := by
  cases text with
  | nil => cases found
  | cons c text =>
    simp only [name?, Option.ite_none_right_eq_some, Option.some.injEq, Prod.mk.injEq] at found
    obtain ⟨starts, rfl, rfl⟩ := found
    refine ⟨⟨c, text.takeWhile isPart, starts, fun _ => List.mem_takeWhile_imp⟩, rfl, ?_⟩
    exact congrArg (c :: ·) List.takeWhile_append_dropWhile.symm

end Name

theorem not_isWordChar_of_isSpacing (c : Char) (space : isSpacing c) : isWordChar c = false := by
  rw [Bool.eq_false_iff]
  intro part
  rw [Text.not_isSpacing_of_isWordChar part] at space
  cases space

theorem not_isTypeChar_of_isSpacing (c : Char) (space : isSpacing c) : isTypeChar c = false := by
  simp only [isSpacing, Bool.or_eq_true, beq_iff_eq] at space
  rcases space with rfl | rfl <;> decide

/-- Text on one line that is closed by a character: what stands before the first such character. -/
theorem run_closed {closing : Char} {inner : List Char} (unclosed : closing ∉ inner)
    (inLine : '\n' ∉ inner) (rest : List Char) :
    (inner ++ closing :: rest).takeWhile (fun c => c != closing && c != '\n') = inner ∧
      (inner ++ closing :: rest).dropWhile (fun c => c != closing && c != '\n') =
        closing :: rest := by
  refine Text.run_append_of_all (fun c member => ?_) (by simp)
  have other : c ≠ closing := fun same => unclosed (same ▸ member)
  have within : c ≠ '\n' := fun same => inLine (same ▸ member)
  simp [other, within]

theorem not_mem_run_closed (closing : Char) (text : List Char) :
    closing ∉ text.takeWhile (fun c => c != closing && c != '\n') ∧
      '\n' ∉ text.takeWhile (fun c => c != closing && c != '\n') := by
  constructor <;> intro member <;> simpa using List.mem_takeWhile_imp member

section Bracketed

theorem solid_bracketed (text : Bracketed) (rest : List Char) : Solid (text.chars ++ rest) := by
  rintro c ⟨⟩
  decide

theorem bracketed?_bracketed (text : Bracketed) (rest : List Char) :
    bracketed? (text.chars ++ rest) = some (text.chars, rest) := by
  obtain ⟨taken, left⟩ := run_closed text.unclosed text.inLine rest
  have whole : text.chars ++ rest = '(' :: (text.inner ++ ')' :: rest) := by
    simp [Bracketed.chars]
  rw [whole]
  simp only [bracketed?, taken, left, Bracketed.chars]

theorem bracketed_of_bracketed? {text chars rest : List Char}
    (found : bracketed? text = some (chars, rest)) :
    ∃ bracketed : Bracketed, bracketed.chars = chars ∧ text = bracketed.chars ++ rest := by
  unfold bracketed? at found
  split at found
  · rename_i inner
    dsimp only at found
    split at found
    · rename_i after closes
      obtain ⟨rfl, rfl⟩ := by simpa using found
      obtain ⟨unclosed, inLine⟩ := not_mem_run_closed ')' inner
      refine ⟨⟨_, unclosed, inLine⟩, rfl, ?_⟩
      have parts := List.takeWhile_append_dropWhile (p := fun c => c != ')' && c != '\n')
        (l := inner)
      rw [closes] at parts
      simp [Bracketed.chars, parts]
    · cases found
  · cases found

end Bracketed

section Optional

variable {Part : Type} {written : Part → List Char} {read : List Char → Option (List Char)}

/-- Where a part may stand or not, the text before what is left is that part or nothing. -/
theorem exists_optional
    (finds : ∀ {text rest}, read text = some rest → ∃ part, text = written part ++ rest)
    (text : List Char) :
    ∃ part : Option Part, text = part.elim [] written ++ (read text).getD text := by
  cases found : read text with
  | none => exact ⟨none, rfl⟩
  | some rest =>
    obtain ⟨part, split⟩ := finds found
    exact ⟨some part, split⟩

/-- A part that may stand or not is read as far as it goes, and no less of it. -/
theorem length_optional_le
    (finds : ∀ {text rest}, read text = some rest → ∃ part, text = written part ++ rest)
    (reads : ∀ part rest, ∃ left : List Char, left.length ≤ rest.length ∧
      read (written part ++ rest) = some left) (part : Option Part) (rest : List Char) :
    ((read (part.elim [] written ++ rest)).getD (part.elim [] written ++ rest)).length ≤
      rest.length := by
  cases part with
  | some part =>
    obtain ⟨left, short, found⟩ := reads part rest
    rwa [Option.elim_some, found]
  | none =>
    obtain ⟨other, split⟩ := exists_optional finds rest
    have parts := congrArg List.length split
    rw [List.length_append] at parts
    exact Nat.le.intro ((Nat.add_comm _ _).trans parts.symm)

end Optional

/-- A type name behind a keyword goes on as far as it can. -/
theorem typeAfter?_append (keyword : String) (gap : Gap) (apart : gap.chars ≠ [])
    (typeName : Name isTypeChar) (rest : List Char) :
    typeAfter? keyword (keyword.toList ++ (gap.chars ++ (typeName.chars ++ rest))) =
      some (typeName.chars ++ rest.takeWhile isTypeChar, rest.dropWhile isTypeChar) := by
  rw [typeAfter?, after?_append]
  simp only [Option.bind_eq_bind, Option.bind_some, afterSpacing?_gap gap apart (solid_name _ _),
    name?_name]

/-- A type name behind a keyword ends before a gap. -/
theorem typeAfter?_gap (keyword : String) (gap : Gap) (apart : gap.chars ≠ [])
    (typeName : Name isTypeChar) (behind : Gap) {rest : List Char}
    (stops : ∀ c ∈ rest.head?, isTypeChar c = false) :
    typeAfter? keyword (keyword.toList ++ (gap.chars ++ (typeName.chars ++
      (behind.chars ++ rest)))) = some (typeName.chars, behind.chars ++ rest) := by
  rw [typeAfter?, after?_append]
  simp only [Option.bind_eq_bind, Option.bind_some, afterSpacing?_gap gap apart (solid_name _ _),
    name?_gap typeName behind not_isTypeChar_of_isSpacing stops]

theorem append_of_typeAfter? {keyword : String} {text chars rest : List Char}
    (found : typeAfter? keyword text = some (chars, rest)) :
    ∃ (gap : Gap) (typeName : Name isTypeChar), gap.chars ≠ [] ∧ typeName.chars = chars ∧
      text = keyword.toList ++ (gap.chars ++ (typeName.chars ++ rest)) := by
  simp only [typeAfter?, Option.bind_eq_bind, Option.bind_eq_some_iff] at found
  obtain ⟨_, word, _, spaced, named⟩ := found
  obtain ⟨gap, apart, second⟩ := gap_of_afterSpacing? spaced
  obtain ⟨typeName, same, third⟩ := name_of_name? named
  exact ⟨gap, typeName, apart, same, by rw [append_of_after? word, second, third]⟩

/-- No keyword of a declaration begins another. -/
theorem findSome?_keyword {kind : DeclarationKind} {rest : List Char}
    {found : List Char × List Char}
    (finds : typeAfter? kind.keyword (kind.keyword.toList ++ rest) = some found) :
    DeclarationKind.all.findSome? (fun other =>
      typeAfter? other.keyword (kind.keyword.toList ++ rest)) = some found := by
  have none (other : DeclarationKind) (different : other ≠ kind) :
      typeAfter? other.keyword (kind.keyword.toList ++ rest) = none := by
    cases other <;> cases kind <;> first | exact absurd rfl different | rfl
  cases kind with
  | constructor => simp [DeclarationKind.all, finds]
  | static => simp [DeclarationKind.all, finds, none .constructor]
  | virtual => simp [DeclarationKind.all, finds, none .constructor, none .static]

theorem afterReturn?_return (returned : Return) (rest : List Char) :
    afterReturn? (returned.chars ++ rest) = some (rest.dropWhile isReturnChar) := by
  have whole : returned.chars ++ rest = returned.beforeColon.chars ++
      (":".toList ++ (returned.beforeType.chars ++ (returned.typeName.chars ++ rest))) := by
    simp [Return.chars]
  rw [whole, afterReturn?, after?_gap _ (by decide)]
  simp only [Option.bind_eq_bind, Option.bind_some, skipSpacing_gap _ (solid_name _ _), name?_name,
    Option.pure_def]

theorem return_of_afterReturn? {text rest : List Char} (found : afterReturn? text = some rest) :
    ∃ returned : Return, text = returned.chars ++ rest := by
  simp only [afterReturn?, Option.bind_eq_bind, Option.bind_eq_some_iff, Option.pure_def,
    Option.some.injEq, Prod.exists] at found
  obtain ⟨behind, colon, chars, after, named, rfl⟩ := found
  obtain ⟨beforeColon, first⟩ := gap_of_after? colon
  obtain ⟨beforeType, second⟩ := exists_gap behind
  obtain ⟨typeName, -, third⟩ := name_of_name? named
  refine ⟨⟨beforeColon, beforeType, typeName⟩, ?_⟩
  rw [first, second, third]
  simp [Return.chars]

/-- A narrowed signature is read with its return type, and what is left is no more than what stands
behind it. -/
theorem afterNarrowed?_narrowed (narrowed : Narrowed) (rest : List Char) :
    ∃ left : List Char, left.length ≤ rest.length ∧
      afterNarrowed? (narrowed.chars ++ rest) = some left := by
  have whole : narrowed.chars ++ rest = narrowed.beforeArrow.chars ++ ("->".toList ++
      (narrowed.beforeParams.chars ++ (narrowed.params.chars ++
        (narrowed.returned.elim [] Return.chars ++ rest)))) := by
    simp [Narrowed.chars, Narrowed.signature]
  have short := length_optional_le return_of_afterReturn?
    (fun returned rest => ⟨_, (List.dropWhile_suffix _).length_le, afterReturn?_return returned rest⟩)
    narrowed.returned rest
  refine ⟨_, short, ?_⟩
  rw [whole, afterNarrowed?, after?_gap _ (by decide)]
  simp only [Option.bind_eq_bind, Option.bind_some, skipSpacing_gap _ (solid_bracketed _ _),
    bracketed?_bracketed, Option.pure_def]

theorem narrowed_of_afterNarrowed? {text rest : List Char}
    (found : afterNarrowed? text = some rest) :
    ∃ narrowed : Narrowed, text = narrowed.chars ++ rest := by
  simp only [afterNarrowed?, Option.bind_eq_bind, Option.bind_eq_some_iff, Option.pure_def,
    Option.some.injEq, Prod.exists] at found
  obtain ⟨behind, arrow, inner, after, brackets, rfl⟩ := found
  obtain ⟨beforeArrow, first⟩ := gap_of_after? arrow
  obtain ⟨beforeParams, second⟩ := exists_gap behind
  obtain ⟨params, -, third⟩ := bracketed_of_bracketed? brackets
  obtain ⟨returned, split⟩ := exists_optional return_of_afterReturn? after
  generalize (afterReturn? after).getD after = left at split ⊢
  refine ⟨⟨beforeArrow, beforeParams, params, returned⟩, ?_⟩
  rw [first, second, third, split]
  simp [Narrowed.chars, Narrowed.signature]

/-- A statement is read as far as its narrowed signature goes, and no less of it. -/
theorem afterDeclaration?_registration (statement : Registration) (rest : List Char) :
    ∃ left : List Char, left.length ≤ rest.length ∧
      afterDeclaration? (statement.chars ++ rest) = some left := by
  have stops : ∀ c ∈ (statement.params.chars ++ (statement.narrowed.elim [] Narrowed.chars ++
      rest)).head?, isTypeChar c = false := by
    rintro c ⟨⟩
    decide
  have named := findSome?_keyword (typeAfter?_gap statement.kind.keyword statement.beforeTarget
    statement.apart statement.target statement.beforeParams stops)
  have short := length_optional_le narrowed_of_afterNarrowed? afterNarrowed?_narrowed
    statement.narrowed rest
  refine ⟨_, short, ?_⟩
  simp only [Registration.chars, List.append_assoc, afterDeclaration?, Option.bind_eq_bind,
    named, Option.bind_some, skipSpacing_gap _ (solid_bracketed _ _), bracketed?_bracketed,
    Option.pure_def]

theorem registration_of_afterDeclaration? {text rest : List Char}
    (found : afterDeclaration? text = some rest) :
    ∃ statement : Registration, text = statement.chars ++ rest := by
  simp only [afterDeclaration?, Option.bind_eq_bind, Option.bind_eq_some_iff, Option.pure_def,
    Option.some.injEq, Prod.exists] at found
  obtain ⟨_, behindTarget, named, _, behindParams, brackets, rfl⟩ := found
  obtain ⟨kind, -, named⟩ := List.exists_of_findSome?_eq_some named
  obtain ⟨beforeTarget, target, apart, -, first⟩ := append_of_typeAfter? named
  obtain ⟨beforeParams, second⟩ := exists_gap behindTarget
  obtain ⟨params, -, third⟩ := bracketed_of_bracketed? brackets
  obtain ⟨narrowed, split⟩ := exists_optional narrowed_of_afterNarrowed? behindParams
  generalize (afterNarrowed? behindParams).getD behindParams = left at split ⊢
  refine ⟨⟨kind, beforeTarget, apart, target, beforeParams, params, narrowed⟩, ?_⟩
  rw [first, second, third, split]
  simp only [Registration.chars, List.append_assoc]

theorem Gap.inLine (gap : Gap) : '\n' ∉ gap.chars := fun member => by
  cases gap.spacing _ member

theorem Name.inLine {isPart : Char → Bool} (name : Name isPart) (within : isPart '\n' = false) :
    '\n' ∉ name.chars := by
  intro member
  rcases List.mem_cons.1 member with same | later
  · cases same ▸ name.starts
  · rw [name.parts _ later] at within
    cases within

theorem Bracketed.inLine_chars (text : Bracketed) : '\n' ∉ text.chars := by
  simp [chars, text.inLine]

theorem Return.inLine (returned : Return) : '\n' ∉ returned.chars := by
  simp [chars, Gap.inLine, returned.typeName.inLine (by decide)]

theorem Narrowed.inLine (narrowed : Narrowed) : '\n' ∉ narrowed.chars := by
  cases given : narrowed.returned <;>
    simp [chars, signature, given, Gap.inLine, Bracketed.inLine_chars, Return.inLine]

theorem Registration.inLine (statement : Registration) : '\n' ∉ statement.chars := by
  have keyword : '\n' ∉ statement.kind.keyword.toList := by
    cases statement.kind <;> decide
  cases given : statement.narrowed <;>
    simp [chars, given, keyword, Gap.inLine, Bracketed.inLine_chars, Narrowed.inLine,
      statement.target.inLine (by decide)]

namespace Spells

variable {slice : List Char} {token? : Option Token}

theorem ne_nil (spells : Spells slice token?) : slice ≠ [] := by
  cases spells with
  | declaration statement =>
    have keyword : statement.kind.keyword.toList ≠ [] := by cases statement.kind <;> decide
    simp [Registration.chars, keyword]
  | word nonempty | space nonempty => exact nonempty
  | _ => simp [Name.chars]

/-- The line end is a token of its own, and no other token is written with one. -/
theorem eq_lineEnd (spells : Spells slice token?) (ends : '\n' ∈ slice ∨ token? = some .newLine) :
    slice = ['\n'] ∧ token? = some .newLine := by
  have apart (absent : '\n' ∉ slice) (other : token? ≠ some .newLine) :
      slice = ['\n'] ∧ token? = some .newLine :=
    (ends.elim absent other).elim
  cases spells with
  | importType gap _ typeName =>
    exact apart (by simp [gap.inLine, typeName.inLine (by decide)]) (by simp)
  | declaration statement => exact apart statement.inLine (by simp)
  | call gap operation beforeArgs =>
    exact apart (by simp [gap.inLine, operation.inLine (by decide), beforeArgs.inLine]) (by simp)
  | new gap _ typeName beforeArgs =>
    exact apart (by simp [gap.inLine, typeName.inLine (by decide), beforeArgs.inLine]) (by simp)
  | assign name beforeEquals =>
    exact apart (by simp [name.inLine (by decide), beforeEquals.inLine]) (by simp)
  | mark marked =>
    simp only [marks, List.mem_cons, List.not_mem_nil, or_false, Prod.mk.injEq] at marked
    rcases marked with ⟨rfl, rfl⟩ | ⟨rfl, rfl⟩ | ⟨rfl, rfl⟩ | ⟨rfl, rfl⟩
    · exact apart (by decide) (by decide)
    · exact apart (by decide) (by decide)
    · exact apart (by decide) (by decide)
    · exact ⟨rfl, rfl⟩
  | quoted _ inLine => exact apart (by simp [inLine]) (by simp)
  | word _ parts => exact apart (fun member => by cases parts _ member) (by simp)
  | space _ parts => exact apart (fun member => by cases parts _ member) (by simp)
  | char other =>
    refine apart (fun member => ?_) (by simp)
    rw [← List.mem_singleton.1 member] at other
    cases other

end Spells

end Colloquy.Lexer
