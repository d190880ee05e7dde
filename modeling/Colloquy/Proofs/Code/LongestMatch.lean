import Colloquy.Proofs.Code.Rules

/-!
# Longest match

The longest find of the rules is the longest written token at the start of a text.  So a text is cut
into the longest written tokens, one after another, and there is no other way to do that.
-/

namespace Colloquy

namespace Lexeme

/-- The text that stretches were cut from. -/
def textOf (stretches : List Lexeme) : List Char := stretches.flatMap slice

@[simp]
theorem textOf_nil : textOf [] = [] := rfl

@[simp]
theorem textOf_cons (lexeme : Lexeme) (later : List Lexeme) :
    textOf (lexeme :: later) = lexeme.slice ++ textOf later := rfl

end Lexeme

namespace Lexer

open Text (isWordChar isSpacing)

/-- The longest find of a list. -/
def longestOf (finds : List Found) : Option Found :=
  finds.foldl (fun best found => some (best.elim found (longer · found))) none

/-- The longest find is one of the finds. -/
theorem mem_of_longestOf {finds : List Found} {found : Found}
    (longest : longestOf finds = some found) : found ∈ finds := by
  have each : ∀ best, longestOf finds = some best → best ∈ finds := by
    refine List.foldlRecOn (motive := fun best => ∀ found, best = some found → found ∈ finds)
      finds _ (by simp) ?_
    intro best known next member found chosen
    cases best with
    | none =>
      obtain rfl : next = found := by simpa using chosen
      exact member
    | some best =>
      simp only [Option.elim_some, longer, Option.some.injEq] at chosen
      split at chosen
      · exact chosen ▸ member
      · exact known found (congrArg some chosen)
  exact each found longest

theorem longer_le (first second : Found) :
    (longer first second).rest.length ≤ first.rest.length ∧
      (longer first second).rest.length ≤ second.rest.length := by
  unfold longer
  split <;> omega

/-- No find leaves less than the longest one. -/
theorem le_of_longestOf {finds : List Found} {found : Found}
    (longest : longestOf finds = some found) :
    ∀ other ∈ finds, found.rest.length ≤ other.rest.length := by
  have each (best : Option Found)
      (chosen : finds.foldl (fun best found => some (best.elim found (longer · found))) best =
        some found) :
      ∀ other, other ∈ best ∨ other ∈ finds → found.rest.length ≤ other.rest.length := by
    clear longest
    induction finds generalizing best with
    | nil =>
      rintro other (known | member)
      · cases chosen.symm.trans known
        exact le_rfl
      · cases member
    | cons next finds ih =>
      have later := ih _ chosen
      have here := later _ (.inl rfl)
      rintro other (known | member)
      · cases known
        exact here.trans (longer_le _ _).1
      · rcases List.mem_cons.1 member with rfl | member
        · cases best with
          | none => exact here
          | some best => exact here.trans (longer_le _ _).2
        · exact later other (.inr member)
  exact fun other member => each none longest other (.inr member)

/-- A written token in front of a text, where no written token is longer. -/
structure Longest (slice : List Char) (token? : Option Token) (rest : List Char) : Prop where
  /-- The slice is a written token. -/
  spells : Spells slice token?
  /-- No longer one begins there. -/
  longest : ∀ other token?, Spells other token? → other <+: slice ++ rest →
    other.length ≤ slice.length

/-- Every character is a written token on its own, if only as text. -/
theorem exists_spells (c : Char) : ∃ token?, Spells [c] token? := by
  by_cases part : isWordChar c
  · exact ⟨_, .word (by simp) (by simpa using part)⟩
  by_cases space : isSpacing c
  · exact ⟨_, .space (by simp) (by simpa using space)⟩
  by_cases marked : ∃ token, (c, token) ∈ marks
  · obtain ⟨token, marked⟩ := marked
    exact ⟨_, .mark marked⟩
  · have unmarked {d : Char} (token : Token) (known : (d, token) ∈ marks) : c ≠ d := by
      rintro rfl
      exact marked ⟨token, known⟩
    have comma : c ≠ ',' := unmarked .comma (by simp [marks])
    have close : c ≠ ')' := unmarked .close (by simp [marks])
    have plus : c ≠ '+' := unmarked .plus (by simp [marks])
    have lineEnd : c ≠ '\n' := unmarked .newLine (by simp [marks])
    have other : isOther c := by simp [isOther, part, space, comma, close, plus, lineEnd]
    exact ⟨_, .char other⟩

/-- Among finds there is a longest one. -/
theorem longestOf_isSome {finds : List Found} (nonempty : finds ≠ []) :
    (longestOf finds).isSome := by
  obtain rfl | ⟨front, last, rfl⟩ := List.eq_nil_or_concat finds
  · exact absurd rfl nonempty
  · simp [longestOf]

theorem longest?_isSome (c : Char) (text : List Char) : (longest? (c :: text)).isSome := by
  obtain ⟨token?, spells⟩ := exists_spells c
  obtain ⟨rule, member, found, finds, -⟩ := exists_find spells text
  exact longestOf_isSome (List.ne_nil_of_mem (List.mem_filterMap.2 ⟨rule, member, finds⟩))

/-- The first stretch of a text is the longest written token there. -/
theorem longest_first (c : Char) (text : List Char) :
    ∃ slice rest, c :: text = slice ++ rest ∧ (first (c :: text)).1 = slice.length ∧
      Longest slice (first (c :: text)).2 rest := by
  obtain ⟨found, longest⟩ := Option.isSome_iff_exists.1 (longest?_isSome c text)
  obtain ⟨rule, member, finds⟩ := List.mem_filterMap.1 (mem_of_longestOf longest)
  obtain ⟨slice, spells, split⟩ := findsSpelled_rules member _ _ finds
  have positive : 0 < slice.length := List.length_pos_iff.2 spells.ne_nil
  have same : first (c :: text) = (slice.length, found.token?) := by
    rw [first, longest, split]
    simp only [List.length_append, Nat.add_sub_cancel, Prod.mk.injEq, and_true]
    omega
  rw [same]
  refine ⟨slice, found.rest, split, rfl, spells, ?_⟩
  rintro other token? written ⟨rest, whole⟩
  obtain ⟨rule, member, reached, finds, short⟩ := exists_find written rest
  rw [whole, ← split] at finds
  have least := le_of_longestOf longest reached (List.mem_filterMap.2 ⟨rule, member, finds⟩)
  have lengths := congrArg List.length whole
  simp only [List.length_append] at lengths
  omega

/-- A text is cut into the longest written tokens, one after another. -/
inductive Tokenizes : List Char → List Lexeme → Prop
  | nil : Tokenizes [] []
  | cons {slice rest : List Char} {token? : Option Token} {later : List Lexeme} :
    Longest slice token? rest → Tokenizes rest later →
    Tokenizes (slice ++ rest) (⟨slice, token?⟩ :: later)

theorem tokenizes_lexemes (text : List Char) : Tokenizes text (lexemes text) := by
  fun_induction lexemes text with
  | case1 => exact .nil
  | case2 c text length token? stretch ih =>
    obtain ⟨slice, rest, split, same, longest⟩ := longest_first c text
    rw [stretch] at same longest
    dsimp only at same longest
    have taken : (c :: text).take length = slice := by rw [split, same, List.take_left]
    have left : text.drop (length - 1) = rest := by
      have positive : length = length - 1 + 1 := by
        have := List.length_pos_iff.2 longest.spells.ne_nil
        omega
      calc text.drop (length - 1) = (c :: text).drop length := by rw [positive]; rfl
        _ = rest := by rw [split, same, List.drop_left]
    rw [left] at ih ⊢
    rw [taken, split]
    exact .cons longest ih

section Tokenizes

variable {text : List Char} {stretches : List Lexeme}

/-- What holds of written tokens holds of the stretches that a text is cut into. -/
theorem Tokenizes.spells (cut : Tokenizes text stretches) :
    ∀ lexeme ∈ stretches, Spells lexeme.slice lexeme.token? := by
  induction cut with
  | nil => simp
  | cons longest _ ih => exact List.forall_mem_cons.2 ⟨longest.spells, ih⟩

/-- In their order the stretches are the text. -/
theorem Tokenizes.textOf_eq (cut : Tokenizes text stretches) : Lexeme.textOf stretches = text := by
  induction cut with
  | nil => rfl
  | cons _ _ ih => rw [Lexeme.textOf_cons, ih]

theorem Tokenizes.slice_subset (cut : Tokenizes text stretches) :
    ∀ lexeme ∈ stretches, lexeme.slice ⊆ text := by
  intro lexeme member c within
  rw [← cut.textOf_eq]
  exact List.mem_flatMap.2 ⟨lexeme, member, within⟩

end Tokenizes

/-- The rule that finds a written token, by its first word and by what stands behind that. -/
def ruleFor (slice : List Char) : Rule :=
  let word := slice.takeWhile isWordChar
  let behind := skipSpacing (slice.dropWhile isWordChar)
  if word = [] then
    match behind with
    | [] => runRule isSpacing .space
    | [c] => if isOther c then otherRule else markRule
    | c :: _ => if c = '.' then callRule else quotedRule
  else if behind = [] then runRule isWordChar .word
  else if behind = "=".toList then assignRule
  else if word = "import".toList then importRule
  else if word = "new".toList then newRule
  else declarationRule

/-- A word before a gap is the first word of a text. -/
theorem first_word {word : List Char} (parts : ∀ c ∈ word, isWordChar c) (gap : Gap)
    {rest : List Char} (solid : Solid rest)
    (stops : gap.chars = [] → ∀ c ∈ rest.head?, isWordChar c = false) :
    (word ++ (gap.chars ++ rest)).takeWhile isWordChar = word ∧
      skipSpacing ((word ++ (gap.chars ++ rest)).dropWhile isWordChar) = rest := by
  obtain ⟨taken, left⟩ :=
    Text.run_append_of_all parts (stops_gap gap not_isWordChar_of_isSpacing stops)
  rw [taken, left, skipSpacing_gap gap solid]
  exact ⟨rfl, rfl⟩

/-- A keyword before a gap and a name decides on the rule. -/
theorem ruleFor_keyword {isPart : Char → Bool} (keyword : String) (nonempty : keyword.toList ≠ [])
    (letters : keyword.toList.all isWordChar) (gap : Gap) (apart : gap.chars ≠ [])
    (name : Name isPart) (rest : List Char) :
    ruleFor (keyword.toList ++ (gap.chars ++ (name.chars ++ rest))) =
      if keyword.toList = "import".toList then importRule
      else if keyword.toList = "new".toList then newRule
      else declarationRule := by
  obtain ⟨taken, left⟩ := first_word (List.all_eq_true.1 letters) gap (solid_name name rest)
    fun none => absurd none apart
  have named : name.chars ++ rest ≠ "=".toList := by
    intro same
    have starts := name.starts
    rw [(List.cons.inj same).1] at starts
    cases starts
  rw [ruleFor, taken, left]
  simp only [nonempty, named, if_false, show name.chars ++ rest ≠ [] by simp [Name.chars]]

theorem ruleFor_declaration (statement : Registration) :
    ruleFor statement.chars = declarationRule := by
  have rule := ruleFor_keyword statement.kind.keyword (by cases statement.kind <;> decide)
    (by cases statement.kind <;> decide) statement.beforeTarget statement.apart statement.target
    (statement.beforeParams.chars ++ (statement.params.chars ++
      statement.narrowed.elim [] Narrowed.chars))
  have noImport : statement.kind.keyword.toList ≠ "import".toList := by
    cases statement.kind <;> decide
  have noNew : statement.kind.keyword.toList ≠ "new".toList := by
    cases statement.kind <;> decide
  rw [if_neg noImport, if_neg noNew] at rule
  exact rule

/-- A name before an equals sign decides on the rule. -/
theorem ruleFor_assign (name : Name isWordChar) (gap : Gap) :
    ruleFor (name.chars ++ (gap.chars ++ "=".toList)) = assignRule := by
  have parts : ∀ c ∈ name.chars, isWordChar c :=
    List.forall_mem_cons.2 ⟨Text.isWordChar_of_isNameStart name.starts, name.parts⟩
  have solid : Solid "=".toList := by
    rintro _ ⟨⟩
    rfl
  have stops : ∀ c ∈ "=".toList.head?, isWordChar c = false := by
    rintro _ ⟨⟩
    rfl
  obtain ⟨word, behind⟩ := first_word parts gap solid fun _ => stops
  rw [ruleFor, word, behind]
  simp [Name.chars]

/-- A sign that is neither of a word nor a blank decides on the rule, by whether it stands alone. -/
theorem ruleFor_sign {c : Char} (noPart : isWordChar c = false) (solid : isSpacing c = false)
    (text : List Char) :
    ruleFor (c :: text) =
      if text = [] then if isOther c then otherRule else markRule
      else if c = '.' then callRule else quotedRule := by
  have word : (c :: text).takeWhile isWordChar = [] := by simp [noPart]
  have behind : skipSpacing ((c :: text).dropWhile isWordChar) = c :: text := by
    simp [skipSpacing, noPart, solid]
  rw [ruleFor, word, behind]
  cases text <;> rfl

theorem isOther_eq_false_of_mem_marks {c : Char} {token : Token} (marked : (c, token) ∈ marks) :
    isWordChar c = false ∧ isSpacing c = false ∧ isOther c = false := by
  simp only [marks, List.mem_cons, List.not_mem_nil, or_false, Prod.mk.injEq] at marked
  rcases marked with ⟨rfl, -⟩ | ⟨rfl, -⟩ | ⟨rfl, -⟩ | ⟨rfl, -⟩ <;> decide

/-- Each written token is found whole by the rule that its text decides on. -/
theorem ruleFor_spelled {slice : List Char} {token? : Option Token}
    (spells : Spells slice token?) : ruleFor slice slice = some ⟨token?, []⟩ := by
  cases spells with
  | importType gap apart typeName =>
    have found := importRule_spelled gap apart typeName []
    have rule := ruleFor_keyword "import" (by decide) (by decide) gap apart typeName []
    rw [List.append_nil] at rule
    rw [rule, if_pos rfl]
    simpa using found
  | declaration statement declares =>
    obtain ⟨left, short, found⟩ := declarationRule_spelled statement []
    obtain rfl := List.eq_nil_of_length_eq_zero (Nat.le_zero.1 short)
    rw [List.append_nil, List.length_nil, Nat.sub_zero, List.take_length] at found
    rw [ruleFor_declaration, (statement.declares_iff _).1 declares, found]
  | call gap operation beforeArgs =>
    have found := callRule_spelled gap operation beforeArgs []
    have rule : ruleFor ('.' :: (gap.chars ++ (operation.chars ++ (beforeArgs.chars ++ ['('])))) =
        callRule := by
      rw [ruleFor_sign (by decide) (by decide), if_neg (by simp), if_pos rfl]
    rw [List.append_nil] at found
    exact (congrFun rule _).trans found
  | new gap apart typeName beforeArgs =>
    have found := newRule_spelled gap apart typeName beforeArgs []
    have rule := ruleFor_keyword "new" (by decide) (by decide) gap apart typeName
      (beforeArgs.chars ++ "(".toList)
    rw [List.append_nil] at found
    rw [rule, if_neg (by decide), if_pos rfl, found]
  | assign name beforeEquals =>
    have found := assignRule_spelled name beforeEquals []
    rw [List.append_nil] at found
    rw [ruleFor_assign, found]
  | mark marked =>
    obtain ⟨noPart, solid, noOther⟩ := isOther_eq_false_of_mem_marks marked
    rw [ruleFor_sign noPart solid, if_pos rfl, noOther]
    exact markRule_spelled marked []
  | quoted unquoted inLine =>
    have found := quotedRule_spelled unquoted inLine []
    rw [List.append_nil] at found
    rw [List.cons_append, ruleFor_sign (by decide) (by decide), if_neg (by simp),
      if_neg (by decide)]
    exact found
  | word nonempty parts =>
    have found := runRule_spelled .word nonempty parts []
    obtain ⟨taken, left⟩ := @Text.run_append_of_all _ isWordChar _ [] parts (by simp)
    rw [List.append_nil] at taken left
    have rule : ruleFor slice = runRule isWordChar .word := by
      rw [ruleFor, taken, left]
      simp [nonempty, skipSpacing]
    rw [rule]
    simpa using found
  | space nonempty parts =>
    have found := runRule_spelled .space nonempty parts []
    obtain ⟨word, behind⟩ := @first_word [] (by simp) ⟨slice, parts⟩ []
      (by rintro _ ⟨⟩) (by rintro _ _ ⟨⟩)
    rw [List.nil_append, List.append_nil] at word behind
    have rule : ruleFor slice = runRule isSpacing .space := by
      rw [ruleFor, word, behind]
      rfl
    rw [rule]
    simpa using found
  | char other =>
    have apart := other
    simp only [isOther, Bool.not_eq_true', Bool.or_eq_false_iff] at apart
    obtain ⟨⟨⟨⟨⟨noPart, solid⟩, -⟩, -⟩, -⟩, -⟩ := apart
    rw [ruleFor_sign noPart solid, if_pos rfl, if_pos other]
    exact otherRule_spelled other []

/-- A slice is the written form of one token only. -/
theorem Spells.unique {slice : List Char} {first second : Option Token}
    (spells : Spells slice first) (again : Spells slice second) : first = second := by
  have same := (ruleFor_spelled spells).symm.trans (ruleFor_spelled again)
  simpa using same

/-- A text begins with one longest written token only. -/
theorem Longest.unique {slice other rest left : List Char} {first second : Option Token}
    (longest : Longest slice first rest) (again : Longest other second left)
    (same : slice ++ rest = other ++ left) : slice = other ∧ first = second ∧ rest = left := by
  have starts : other <+: slice ++ rest := ⟨left, same.symm⟩
  have startsAgain : slice <+: other ++ left := ⟨rest, same⟩
  have lengths : slice.length = other.length :=
    le_antisymm (again.longest _ _ longest.spells startsAgain)
      (longest.longest _ _ again.spells starts)
  obtain ⟨rfl, rfl⟩ := List.append_inj same lengths
  exact ⟨rfl, longest.spells.unique again.spells, rfl⟩

theorem Tokenizes.unique {text : List Char} {first second : List Lexeme}
    (cut : Tokenizes text first) (again : Tokenizes text second) : first = second := by
  induction cut generalizing second with
  | nil =>
    generalize empty : [] = text at again
    cases again with
    | nil => rfl
    | cons longest => exact absurd (List.append_eq_nil_iff.1 empty.symm).1 longest.spells.ne_nil
  | @cons slice rest token? later longest _ ih =>
    generalize whole : slice ++ rest = text at again
    cases again with
    | nil => exact absurd (List.append_eq_nil_iff.1 whole).1 longest.spells.ne_nil
    | cons other laterAgain =>
      obtain ⟨rfl, rfl, rfl⟩ := longest.unique other whole
      rw [ih laterAgain]

/-- A text is cut into the longest written tokens in just one way. -/
theorem tokenizes_iff {text : List Char} {stretches : List Lexeme} :
    Tokenizes text stretches ↔ stretches = lexemes text := by
  constructor
  · exact fun cut => cut.unique (tokenizes_lexemes text)
  · rintro rfl
    exact tokenizes_lexemes text

/-- A text that is a written token as a whole is that token and nothing else. -/
theorem lexemes_spelled {slice : List Char} {token? : Option Token} (spells : Spells slice token?) :
    lexemes slice = [⟨slice, token?⟩] := by
  have longest : Longest slice token? [] := by
    refine ⟨spells, fun other token? _ starts => ?_⟩
    rw [List.append_nil] at starts
    exact starts.length_le
  have cut := Tokenizes.cons longest .nil
  rw [List.append_nil] at cut
  exact (tokenizes_iff.1 cut).symm

end Lexer

end Colloquy
