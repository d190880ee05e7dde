import Colloquy.Proofs.Code.LongestMatch

/-!
# What a line of code is cut into

The tokens at the start of a text, one kind at a time.  The longest find of the rules is taken, so
for each kind it is to be known which other rules find anything there.
-/

namespace Colloquy.Lexer

open Text (isWordChar isNameStart isSpacing isWordChar_of_isNameStart isWordChar_of_isDigit
  not_isSpacing_of_isWordChar not_isNameStart_of_isDigit)

/-- An identifier: a letter or an underscore, and then letters, digits and underscores. -/
structure Identifier where
  /-- The first character. -/
  first : Char
  /-- The further characters. -/
  others : List Char
  /-- The first character may start a name. -/
  starts : isNameStart first
  /-- The further characters are those of words. -/
  parts : ∀ c ∈ others, isWordChar c

namespace Identifier

/-- The characters of an identifier. -/
def chars (name : Identifier) : List Char := name.first :: name.others

/-- The text of an identifier. -/
def text (name : Identifier) : String := String.ofList name.chars

@[simp]
theorem toList_text (name : Identifier) : name.text.toList = name.chars := String.toList_ofList

theorem isWordChar_of_mem (name : Identifier) : ∀ c ∈ name.chars, isWordChar c := by
  intro c member
  rcases List.mem_cons.1 member with rfl | later
  · exact isWordChar_of_isNameStart name.starts
  · exact name.parts c later

theorem not_mem_of_not_isWordChar (name : Identifier) {c : Char} (apart : isWordChar c = false) :
    c ∉ name.chars := by
  intro member
  rw [name.isWordChar_of_mem c member] at apart
  cases apart

end Identifier

/-- The tokens of a text. -/
def tokens (text : List Char) : List (Option Token) := (lexemes text).map (·.token?)

@[simp]
theorem tokens_nil : tokens [] = [] := by
  rw [tokens, lexemes]
  rfl

/-- The longest find is the first token, and what it leaves has the others. -/
theorem tokens_append {slice rest : List Char} {token? : Option Token} (nonempty : slice ≠ [])
    (longest : longest? (slice ++ rest) = some ⟨token?, rest⟩) :
    tokens (slice ++ rest) = token? :: tokens rest := by
  obtain ⟨c, slice, rfl⟩ := List.exists_cons_of_ne_nil nonempty
  have stretch : first (c :: (slice ++ rest)) = ((c :: slice).length, token?) := by
    rw [← List.cons_append, first, longest]
    simp only [List.length_append, List.length_cons, Nat.add_sub_cancel_right, Prod.mk.injEq,
      and_true]
    omega
  rw [tokens, List.cons_append, lexemes, stretch]
  simp only [List.length_cons, Nat.add_sub_cancel, List.drop_left, List.map_cons]
  rfl

/-- No keyword is found where no name may start. -/
theorem after?_of_not_isNameStart {word : String} (starts : word.toList.head?.any isNameStart)
    {c : Char} (notStart : isNameStart c = false) (text : List Char) :
    after? word (c :: text) = none := by
  rw [after?, Text.isPrefixOf?_eq_none_iff]
  rintro ⟨after, whole⟩
  cases letters : word.toList with
  | nil => simp [letters] at starts
  | cons d later =>
    rw [letters] at starts whole
    cases whole
    simp [notStart] at starts

theorem typeAfter?_of_not_isNameStart {word : String}
    (starts : word.toList.head?.any isNameStart) {c : Char} (notStart : isNameStart c = false)
    (text : List Char) : typeAfter? word (c :: text) = none := by
  rw [typeAfter?, after?_of_not_isNameStart starts notStart]
  rfl

theorem callRule_of_ne {c : Char} (notDot : c ≠ '.') (text : List Char) :
    callRule (c :: text) = none := by
  have none : after? "." (c :: text) = none := by
    rw [after?, Text.isPrefixOf?_eq_none_iff]
    rintro ⟨after, whole⟩
    cases whole
    exact notDot rfl
  rw [callRule, none]
  rfl

/-- The rules that look at the first character of a text alone. -/
def plainRules : List Rule :=
  [markRule, quotedRule, runRule isWordChar .word, runRule isSpacing .space, otherRule]

/-- Where neither a name nor a call starts, only the plain rules find anything. -/
theorem longest?_of_not_isNameStart {c : Char} (notStart : isNameStart c = false)
    (notDot : c ≠ '.') (text : List Char) :
    longest? (c :: text) = longestOf (plainRules.filterMap (· (c :: text))) := by
  have noImport : importRule (c :: text) = none := by
    rw [importRule, typeAfter?_of_not_isNameStart (by decide) notStart]
    rfl
  have noDeclaration : declarationRule (c :: text) = none := by
    have noKind : DeclarationKind.all.findSome? (fun kind =>
        typeAfter? kind.keyword (c :: text)) = none :=
      List.findSome?_eq_none_iff.2 fun kind _ =>
        typeAfter?_of_not_isNameStart (by cases kind <;> decide) notStart text
    rw [declarationRule, afterDeclaration?, noKind]
    rfl
  have noNew : newRule (c :: text) = none := by
    rw [newRule, typeAfter?_of_not_isNameStart (by decide) notStart]
    rfl
  have noAssign : assignRule (c :: text) = none := by
    simp [assignRule, name?, notStart]
  change longestOf (rules.filterMap (· (c :: text))) = _
  simp only [rules, plainRules, List.filterMap_cons, noImport, noDeclaration, noNew, noAssign,
    callRule_of_ne notDot]

/-- Where a word starts, the plain rules find the word only. -/
theorem plainRules_of_isWordChar {c : Char} (part : isWordChar c) (text : List Char) :
    plainRules.filterMap (· (c :: text)) =
      [⟨some (.word (String.ofList (c :: text.takeWhile isWordChar))),
        text.dropWhile isWordChar⟩] := by
  have noMark : markRule (c :: text) = none := by
    unfold markRule
    split <;> rename_i starts <;> first | rfl | (cases starts; exact absurd part (by decide))
  have noQuote : quotedRule (c :: text) = none := by
    unfold quotedRule
    split
    · rename_i starts
      cases starts
      exact absurd part (by decide)
    · rfl
  have noSpace : runRule isSpacing .space (c :: text) = none := by
    simp [runRule, not_isSpacing_of_isWordChar part]
  have noOther : otherRule (c :: text) = none := by
    simp [otherRule, isOther, part]
  have word : runRule isWordChar .word (c :: text) =
      some ⟨some (.word (String.ofList (c :: text.takeWhile isWordChar))),
        text.dropWhile isWordChar⟩ := by
    rw [runRule, if_pos part]
  simp only [plainRules, List.filterMap_cons, List.filterMap_nil, noMark, noQuote, noSpace, noOther,
    word]

theorem longestOf_pair {first second : Found} (shorter : first.rest.length ≤ second.rest.length) :
    longestOf [first, second] = some first := by
  change some (longer first second) = _
  rw [longer, if_neg (Nat.not_lt.2 shorter)]

/-- A sign that no name and no call starts with is read by the plain rules. -/
theorem tokens_sign {c : Char} {token : Token} {rest : List Char}
    (notStart : isNameStart c = false) (notDot : c ≠ '.')
    (found : longestOf (plainRules.filterMap (· (c :: rest))) = some ⟨some token, rest⟩) :
    tokens (c :: rest) = some token :: tokens rest :=
  @tokens_append [c] rest _ (by simp)
    ((longest?_of_not_isNameStart notStart notDot rest).trans found)

theorem tokens_plus (rest : List Char) : tokens ('+' :: rest) = some .plus :: tokens rest :=
  tokens_sign (by decide) (by decide) rfl

theorem tokens_minus (rest : List Char) :
    tokens ('-' :: rest) = some (.char "-") :: tokens rest :=
  tokens_sign (by decide) (by decide) rfl

theorem tokens_space {rest : List Char} (solid : ∀ c ∈ rest.head?, isSpacing c = false) :
    tokens (' ' :: rest) = some (.space " ") :: tokens rest := by
  obtain ⟨taken, left⟩ := @Text.run_append_of_all _ isSpacing [] rest (by simp) solid
  rw [List.nil_append] at taken left
  have found : runRule isSpacing .space (' ' :: rest) = some ⟨some (.space " "), rest⟩ := by
    rw [runRule, if_pos (by decide), taken, left]
  have longest : longest? ([' '] ++ rest) = some ⟨some (.space " "), rest⟩ := by
    rw [List.singleton_append, longest?_of_not_isNameStart (by decide) (by decide)]
    simp only [plainRules, List.filterMap_cons, found]
    rfl
  exact tokens_append (by simp) longest

/-- Digits are a word up to where a word may end. -/
theorem tokens_digits {digits rest : List Char} (nonempty : digits ≠ [])
    (digital : ∀ c ∈ digits, c.isDigit) (ends : ∀ c ∈ rest.head?, isWordChar c = false) :
    tokens (digits ++ rest) = some (.word (String.ofList digits)) :: tokens rest := by
  refine tokens_append nonempty ?_
  obtain ⟨d, digits, rfl⟩ := List.exists_cons_of_ne_nil nonempty
  have digit : d.isDigit := digital d (.head _)
  have notDot : d ≠ '.' := by
    rintro rfl
    exact absurd digit (by decide)
  obtain ⟨taken, left⟩ := Text.run_append_of_all
    (fun c member => isWordChar_of_isDigit (digital c (.tail _ member))) ends
  rw [List.cons_append, longest?_of_not_isNameStart (not_isNameStart_of_isDigit digit) notDot,
    plainRules_of_isWordChar (isWordChar_of_isDigit digit), taken, left]
  rfl

/-- Quoted text is one token whatever is in it, but for a quote or a line end. -/
theorem tokens_quoted {inner : List Char} (unquoted : '"' ∉ inner) (inLine : '\n' ∉ inner)
    (rest : List Char) :
    tokens ('"' :: inner ++ '"' :: rest) =
      some (.quoted (String.ofList ('"' :: inner ++ ['"']))) :: tokens rest := by
  have whole : '"' :: inner ++ '"' :: rest = ('"' :: inner ++ ['"']) ++ rest := by simp
  rw [whole]
  refine tokens_append (by simp) ?_
  have found := quotedRule_spelled unquoted inLine rest
  rw [← whole, List.cons_append] at found ⊢
  rw [longest?_of_not_isNameStart (by decide) (by decide)]
  -- the quote alone is a find, too, but it leaves more
  have single : otherRule ('"' :: (inner ++ '"' :: rest)) =
      some ⟨some (.char "\""), inner ++ '"' :: rest⟩ := rfl
  have shorter : rest.length ≤ (inner ++ '"' :: rest).length := by
    simp only [List.length_append, List.length_cons]
    omega
  have noMark : markRule ('"' :: (inner ++ '"' :: rest)) = none := rfl
  have noWord : runRule isWordChar .word ('"' :: (inner ++ '"' :: rest)) = none := rfl
  have noSpace : runRule isSpacing .space ('"' :: (inner ++ '"' :: rest)) = none := rfl
  simp only [plainRules, List.filterMap_cons, List.filterMap_nil, noMark, noWord, noSpace, found,
    single]
  exact longestOf_pair shorter

section Assign

variable (name : Identifier) {rest : List Char}

/-- The start of an assignment may begin with a keyword, or with no more than that; but behind it
and blanks there is the equals sign. -/
theorem text_of_afterSpacing? {word : String} (letters : word.toList.all isWordChar)
    {after text : List Char} (found : after? word (name.chars ++ ' ' :: '=' :: rest) = some after)
    (spaced : afterSpacing? after = some text) : text = '=' :: rest := by
  have whole := append_of_after? found
  rcases List.append_eq_append_iff.1 whole with ⟨middle, within, behind⟩ | ⟨middle, within, rfl⟩
  · cases middle with
    | nil =>
      cases behind
      cases spaced
      rfl
    | cons c middle =>
      obtain ⟨rfl, -⟩ := List.cons.inj behind
      have part := List.all_eq_true.1 letters ' ' (by rw [within]; simp)
      exact absurd part (by decide)
  · cases middle with
    | nil =>
      cases spaced
      rfl
    | cons c middle =>
      have part := name.isWordChar_of_mem c (by rw [within]; simp)
      simp [afterSpacing?, not_isSpacing_of_isWordChar part] at spaced

theorem typeAfter?_assign {word : String} (letters : word.toList.all isWordChar) :
    typeAfter? word (name.chars ++ ' ' :: '=' :: rest) = none := by
  refine Option.eq_none_iff_forall_ne_some.2 fun found finds => ?_
  simp only [typeAfter?, Option.bind_eq_bind, Option.bind_eq_some_iff] at finds
  obtain ⟨_, keyword, _, spaced, named⟩ := finds
  rw [text_of_afterSpacing? name letters keyword spaced] at named
  cases named

/-- No rule for a keyword finds anything where an assignment starts. -/
theorem keywordRules_assign :
    importRule (name.chars ++ ' ' :: '=' :: rest) = none ∧
      declarationRule (name.chars ++ ' ' :: '=' :: rest) = none ∧
      newRule (name.chars ++ ' ' :: '=' :: rest) = none := by
  have noKeyword (word : String) (letters : word.toList.all isWordChar) :=
    @typeAfter?_assign name rest word letters
  have noKind : DeclarationKind.all.findSome? (fun kind =>
      typeAfter? kind.keyword (name.chars ++ ' ' :: '=' :: rest)) = none :=
    List.findSome?_eq_none_iff.2 fun kind _ => noKeyword _ (by cases kind <;> decide)
  refine ⟨?_, ?_, ?_⟩
  · rw [importRule, noKeyword "import" (by decide)]
    rfl
  · rw [declarationRule, afterDeclaration?, noKind]
    rfl
  · rw [newRule, noKeyword "new" (by decide)]
    rfl

theorem tokens_assign (rest : List Char) :
    tokens (name.chars ++ ' ' :: '=' :: rest) = some (.assign name.text) :: tokens rest := by
  have whole : name.chars ++ ' ' :: '=' :: rest = (name.chars ++ [' ', '=']) ++ rest := by simp
  rw [whole]
  refine tokens_append (by simp) ?_
  rw [← whole]
  have ends : ∀ c ∈ (' ' :: '=' :: rest).head?, isWordChar c = false := by simp; decide
  obtain ⟨taken, left⟩ := Text.run_append_of_all name.parts ends
  have found : assignRule (name.chars ++ ' ' :: '=' :: rest) =
      some ⟨some (.assign name.text), rest⟩ := by
    simp only [assignRule, Identifier.chars, List.cons_append, name?, name.starts, if_true, taken,
      left]
    rfl
  have plain := plainRules_of_isWordChar (isWordChar_of_isNameStart name.starts)
    (name.others ++ ' ' :: '=' :: rest)
  rw [taken, left] at plain
  have notDot : name.first ≠ '.' := by
    intro same
    exact absurd name.starts (by rw [same]; decide)
  have noCall : callRule (name.chars ++ ' ' :: '=' :: rest) = none := callRule_of_ne notDot _
  have finds : rules.filterMap (· (name.chars ++ ' ' :: '=' :: rest)) =
      ⟨some (.assign name.text), rest⟩ ::
        plainRules.filterMap (· (name.chars ++ ' ' :: '=' :: rest)) := by
    obtain ⟨noImport, noDeclaration, noNew⟩ := @keywordRules_assign name rest
    simp only [rules, plainRules, List.filterMap_cons, noImport, noDeclaration, noNew, noCall,
      found]
  change longestOf (rules.filterMap (· (name.chars ++ ' ' :: '=' :: rest))) = _
  rw [finds]
  rw [Identifier.chars, List.cons_append, plain]
  exact longestOf_pair (by simp +arith)

end Assign

end Colloquy.Lexer
