import Colloquy.Proofs.Code.Parts

/-!
# What the rules find

The rules find what the grammar writes: each find is a written token, and no written token at the
start of a text is longer than what some rule finds there.
-/

namespace Colloquy.Lexer

open Text (isWordChar isNameStart isSpacing)

/-- The rule finds written tokens at the start of its text. -/
def FindsSpelled (rule : Rule) : Prop :=
  ∀ text found, rule text = some found →
    ∃ slice, Spells slice found.token? ∧ text = slice ++ found.rest

theorem findsSpelled_import : FindsSpelled importRule := by
  intro text found finds
  simp only [importRule, Option.bind_eq_bind, Option.bind_eq_some_iff, Option.pure_def,
    Option.some.injEq, Prod.exists] at finds
  obtain ⟨_, _, named, rfl⟩ := finds
  obtain ⟨gap, typeName, apart, rfl, rfl⟩ := append_of_typeAfter? named
  exact ⟨_, .importType gap apart typeName, by simp only [List.append_assoc]⟩

theorem findsSpelled_call : FindsSpelled callRule := by
  intro text found finds
  simp only [callRule, Option.bind_eq_bind, Option.bind_eq_some_iff, Option.pure_def,
    Option.some.injEq, Prod.exists] at finds
  obtain ⟨behindDot, dot, _, behindName, named, _, opened, rfl⟩ := finds
  obtain ⟨gap, second⟩ := exists_gap behindDot
  obtain ⟨operation, rfl, third⟩ := name_of_name? named
  obtain ⟨beforeArgs, fourth⟩ := gap_of_after? opened
  refine ⟨_, .call gap operation beforeArgs, ?_⟩
  rw [append_of_after? dot, second, third, fourth]
  simp only [List.append_assoc]

theorem findsSpelled_new : FindsSpelled newRule := by
  intro text found finds
  simp only [newRule, Option.bind_eq_bind, Option.bind_eq_some_iff, Option.pure_def,
    Option.some.injEq, Prod.exists] at finds
  obtain ⟨_, behindName, named, _, opened, rfl⟩ := finds
  obtain ⟨gap, typeName, apart, rfl, first⟩ := append_of_typeAfter? named
  obtain ⟨beforeArgs, second⟩ := gap_of_after? opened
  refine ⟨_, .new gap apart typeName beforeArgs, ?_⟩
  rw [first, second]
  simp only [List.append_assoc]

theorem findsSpelled_assign : FindsSpelled assignRule := by
  intro text found finds
  simp only [assignRule, Option.bind_eq_bind, Option.bind_eq_some_iff, Option.pure_def,
    Option.some.injEq, Prod.exists] at finds
  obtain ⟨_, behindName, named, _, equals, rfl⟩ := finds
  obtain ⟨name, rfl, first⟩ := name_of_name? named
  obtain ⟨beforeEquals, second⟩ := gap_of_after? equals
  refine ⟨_, .assign name beforeEquals, ?_⟩
  rw [first, second]
  simp only [List.append_assoc]

theorem findsSpelled_declaration : FindsSpelled declarationRule := by
  intro text found finds
  obtain ⟨rest, read, made⟩ := Option.bind_eq_some_iff.1 finds
  obtain rfl := Option.some.inj made
  obtain ⟨statement, rfl⟩ := registration_of_afterDeclaration? read
  refine ⟨_, ?_, rfl⟩
  rw [List.length_append, Nat.add_sub_cancel, List.take_left]
  exact .declaration statement ((statement.declares_iff _).2 rfl)

theorem findsSpelled_mark : FindsSpelled markRule := by
  intro text found finds
  unfold markRule at finds
  split at finds
  all_goals cases finds
  · exact ⟨[','], .mark (by simp [marks]), rfl⟩
  · exact ⟨[')'], .mark (by simp [marks]), rfl⟩
  · exact ⟨['+'], .mark (by simp [marks]), rfl⟩
  · exact ⟨['\n'], .mark (by simp [marks]), rfl⟩

theorem findsSpelled_quoted : FindsSpelled quotedRule := by
  intro text found finds
  unfold quotedRule at finds
  split at finds
  · rename_i rest
    dsimp only at finds
    split at finds
    · rename_i after closes
      obtain rfl := Option.some.inj finds
      obtain ⟨unquoted, inLine⟩ := not_mem_run_closed '"' rest
      refine ⟨_, .quoted unquoted inLine, ?_⟩
      have parts := List.takeWhile_append_dropWhile (p := fun c => c != '"' && c != '\n')
        (l := rest)
      rw [closes] at parts
      simp [parts]
    · cases finds
  · cases finds

theorem findsSpelled_run {isPart : Char → Bool} {token : String → Token}
    (spells : ∀ {text : List Char}, text ≠ [] → (∀ c ∈ text, isPart c) →
      Spells text (some (token (String.ofList text)))) :
    FindsSpelled (runRule isPart token) := by
  intro text found finds
  cases text with
  | nil => cases finds
  | cons c text =>
    simp only [runRule, Option.ite_none_right_eq_some, Option.some.injEq] at finds
    obtain ⟨part, rfl⟩ := finds
    refine ⟨c :: text.takeWhile isPart, spells (by simp) ?_, ?_⟩
    · exact List.forall_mem_cons.2 ⟨part, fun _ => List.mem_takeWhile_imp⟩
    · exact congrArg (c :: ·) List.takeWhile_append_dropWhile.symm

theorem findsSpelled_other : FindsSpelled otherRule := by
  intro text found finds
  cases text with
  | nil => cases finds
  | cons c text =>
    simp only [otherRule, Option.ite_none_right_eq_some, Option.some.injEq] at finds
    obtain ⟨other, rfl⟩ := finds
    exact ⟨[c], .char other, rfl⟩

theorem findsSpelled_rules {rule : Rule} (member : rule ∈ rules) : FindsSpelled rule := by
  simp only [rules, List.mem_cons, List.not_mem_nil, or_false] at member
  rcases member with rfl | rfl | rfl | rfl | rfl | rfl | rfl | rfl | rfl | rfl
  · exact findsSpelled_import
  · exact findsSpelled_declaration
  · exact findsSpelled_call
  · exact findsSpelled_new
  · exact findsSpelled_assign
  · exact findsSpelled_mark
  · exact findsSpelled_quoted
  · exact findsSpelled_run .word
  · exact findsSpelled_run .space
  · exact findsSpelled_other

theorem importRule_spelled (gap : Gap) (apart : gap.chars ≠ []) (typeName : Name isTypeChar)
    (rest : List Char) :
    importRule ("import".toList ++ (gap.chars ++ typeName.chars) ++ rest) =
      some ⟨some (.importType (String.ofList (typeName.chars ++ rest.takeWhile isTypeChar))),
        rest.dropWhile isTypeChar⟩ := by
  rw [List.append_assoc, List.append_assoc, importRule, typeAfter?_append _ gap apart]
  rfl

theorem callRule_spelled (gap : Gap) (operation : Name isWordChar) (beforeArgs : Gap)
    (rest : List Char) :
    callRule (".".toList ++ (gap.chars ++ (operation.chars ++ (beforeArgs.chars ++ "(".toList))) ++
        rest) = some ⟨some (.call (String.ofList operation.chars)), rest⟩ := by
  have named := name?_gap operation beforeArgs not_isWordChar_of_isSpacing
    (show ∀ c ∈ ("(".toList ++ rest).head?, isWordChar c = false by rintro c ⟨⟩; decide)
  have opened := @after?_gap "(" beforeArgs (by decide) rest
  simp only [List.append_assoc, callRule, after?_append, Option.bind_eq_bind, Option.bind_some,
    skipSpacing_gap _ (solid_name _ _), named, opened, Option.pure_def]

theorem newRule_spelled (gap : Gap) (apart : gap.chars ≠ []) (typeName : Name isTypeChar)
    (beforeArgs : Gap) (rest : List Char) :
    newRule ("new".toList ++ (gap.chars ++ (typeName.chars ++ (beforeArgs.chars ++ "(".toList))) ++
        rest) = some ⟨some (.new (String.ofList typeName.chars)), rest⟩ := by
  have named := typeAfter?_gap "new" gap apart typeName beforeArgs
    (show ∀ c ∈ ("(".toList ++ rest).head?, isTypeChar c = false by rintro c ⟨⟩; decide)
  have opened := @after?_gap "(" beforeArgs (by decide) rest
  simp only [List.append_assoc, newRule, named, Option.bind_eq_bind, Option.bind_some, opened,
    Option.pure_def]

theorem assignRule_spelled (name : Name isWordChar) (beforeEquals : Gap) (rest : List Char) :
    assignRule (name.chars ++ (beforeEquals.chars ++ "=".toList) ++ rest) =
      some ⟨some (.assign (String.ofList name.chars)), rest⟩ := by
  have named := name?_gap name beforeEquals not_isWordChar_of_isSpacing
    (show ∀ c ∈ ("=".toList ++ rest).head?, isWordChar c = false by rintro c ⟨⟩; decide)
  have equals := @after?_gap "=" beforeEquals (by decide) rest
  simp only [List.append_assoc, assignRule, named, Option.bind_eq_bind, Option.bind_some, equals,
    Option.pure_def]

/-- A statement is read as far as its narrowed signature goes, and no less of it. -/
theorem declarationRule_spelled (statement : Registration) (rest : List Char) :
    ∃ left : List Char, left.length ≤ rest.length ∧
      declarationRule (statement.chars ++ rest) =
        some ⟨(declared? ((statement.chars ++ rest).take
          ((statement.chars ++ rest).length - left.length))).map .declaration, left⟩ := by
  obtain ⟨left, short, read⟩ := afterDeclaration?_registration statement rest
  exact ⟨left, short, by rw [declarationRule, read]; rfl⟩

theorem markRule_spelled {c : Char} {token : Token} (marked : (c, token) ∈ marks)
    (rest : List Char) : markRule (c :: rest) = some ⟨some token, rest⟩ := by
  simp only [marks, List.mem_cons, List.not_mem_nil, or_false, Prod.mk.injEq] at marked
  rcases marked with ⟨rfl, rfl⟩ | ⟨rfl, rfl⟩ | ⟨rfl, rfl⟩ | ⟨rfl, rfl⟩ <;> rfl

theorem quotedRule_spelled {inner : List Char} (unquoted : '"' ∉ inner) (inLine : '\n' ∉ inner)
    (rest : List Char) :
    quotedRule ('"' :: inner ++ ['"'] ++ rest) =
      some ⟨some (.quoted (String.ofList ('"' :: inner ++ ['"']))), rest⟩ := by
  obtain ⟨taken, left⟩ := run_closed unquoted inLine rest
  have whole : '"' :: inner ++ ['"'] ++ rest = '"' :: (inner ++ '"' :: rest) := by simp
  rw [whole]
  simp only [quotedRule, taken, left]

theorem runRule_spelled {isPart : Char → Bool} (token : String → Token) {text : List Char}
    (nonempty : text ≠ []) (parts : ∀ c ∈ text, isPart c) (rest : List Char) :
    runRule isPart token (text ++ rest) =
      some ⟨some (token (String.ofList (text ++ rest.takeWhile isPart))),
        rest.dropWhile isPart⟩ := by
  obtain ⟨c, text, rfl⟩ := List.exists_cons_of_ne_nil nonempty
  obtain ⟨first, others⟩ := List.forall_mem_cons.1 parts
  rw [List.cons_append, runRule, if_pos first, List.takeWhile_append_of_pos others,
    List.dropWhile_append_of_pos others, List.cons_append]

theorem otherRule_spelled {c : Char} (other : isOther c) (rest : List Char) :
    otherRule (c :: rest) = some ⟨some (.char (String.singleton c)), rest⟩ := by
  rw [otherRule, if_pos other]

/-- What is written at the start of a text is found by some rule, or more than that. -/
theorem exists_find {slice : List Char} {token? : Option Token} (spells : Spells slice token?)
    (rest : List Char) :
    ∃ rule ∈ rules, ∃ found, rule (slice ++ rest) = some found ∧
      found.rest.length ≤ rest.length := by
  have shorter (isPart : Char → Bool) : (rest.dropWhile isPart).length ≤ rest.length :=
    (List.dropWhile_suffix isPart).length_le
  cases spells with
  | importType gap apart typeName =>
    exact ⟨importRule, by simp [rules], _, importRule_spelled gap apart typeName rest, shorter _⟩
  | declaration statement =>
    obtain ⟨left, short, finds⟩ := declarationRule_spelled statement rest
    exact ⟨declarationRule, by simp [rules], _, finds, short⟩
  | call gap operation beforeArgs =>
    exact ⟨callRule, by simp [rules], _, callRule_spelled gap operation beforeArgs rest, le_rfl⟩
  | new gap apart typeName beforeArgs =>
    exact ⟨newRule, by simp [rules], _, newRule_spelled gap apart typeName beforeArgs rest, le_rfl⟩
  | assign name beforeEquals =>
    exact ⟨assignRule, by simp [rules], _, assignRule_spelled name beforeEquals rest, le_rfl⟩
  | mark marked => exact ⟨markRule, by simp [rules], _, markRule_spelled marked rest, le_rfl⟩
  | quoted unquoted inLine =>
    exact ⟨quotedRule, by simp [rules], _, quotedRule_spelled unquoted inLine rest, le_rfl⟩
  | word nonempty parts =>
    exact ⟨runRule isWordChar .word, by simp [rules], _, runRule_spelled .word nonempty parts rest,
      shorter _⟩
  | space nonempty parts =>
    exact ⟨runRule isSpacing .space, by simp [rules], _,
      runRule_spelled .space nonempty parts rest, shorter _⟩
  | char other => exact ⟨otherRule, by simp [rules], _, otherRule_spelled other rest, le_rfl⟩

end Colloquy.Lexer
