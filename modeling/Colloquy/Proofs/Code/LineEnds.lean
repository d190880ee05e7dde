import Colloquy.Proofs.Code.Expression
import Colloquy.Proofs.Code.LongestMatch

/-!
# Line ends in code

No token but the line end itself reaches past the end of a line, so a text is cut into the same
stretches whether its lines are read together or one by one.
-/

namespace Colloquy

/-- The text that a token adds to a literal where no call is open; there a comma and a closing
bracket are text, too. -/
def Token.plain? : Token → Option String
  | .comma => some ","
  | .close => some ")"
  | token => token.text?

theorem Token.plain?_of_text? {token : Token} {written : String}
    (textual : token.text? = some written) : token.plain? = some written := by
  cases token with
  | comma | close => cases textual
  | _ => exact textual

/-- The stretch of a line end. -/
def Lexeme.lineEnd : Lexeme := ⟨['\n'], some .newLine⟩

namespace Lexer

variable {text slice rest : List Char} {token? : Option Token} {stretches : List Lexeme}

/-- What begins a text and has no line end in it stays in the first line. -/
theorem isPrefix_of_lineEnd {front : List Char} (inLine : '\n' ∉ front)
    (starts : front <+: text ++ '\n' :: rest) : front <+: text := by
  have whole : text ++ '\n' :: rest = text ++ ['\n'] ++ rest := by simp
  rcases Nat.lt_or_ge text.length front.length with longer | within
  · have first : text ++ ['\n'] <+: front :=
      List.prefix_of_prefix_length_le ⟨rest, whole.symm⟩ starts
        (by rw [List.length_append]; exact longer)
    exact absurd (first.subset (by simp)) inLine
  · exact List.prefix_of_prefix_length_le starts (List.prefix_append text _) within

theorem longest_lineEnd (rest : List Char) : Longest ['\n'] (some .newLine) rest where
  spells := .mark (by simp [marks])
  longest other token? spells starts := by
    obtain ⟨c, other, rfl⟩ := List.exists_cons_of_ne_nil spells.ne_nil
    obtain rfl : c = '\n' := List.head_eq_of_cons_eq (starts.choose_spec)
    rw [(spells.eq_lineEnd (.inl (.head _))).1]

/-- What is the longest written token in a line stays that when another line follows. -/
theorem Longest.lineEnd (longest : Longest slice token? rest) (more : List Char) :
    Longest slice token? (rest ++ '\n' :: more) where
  spells := longest.spells
  longest other token? spells starts := by
    by_cases ends : '\n' ∈ other
    · rw [(spells.eq_lineEnd (.inl ends)).1]
      exact List.length_pos_iff.2 longest.spells.ne_nil
    · rw [← List.append_assoc] at starts
      exact longest.longest other token? spells (isPrefix_of_lineEnd ends starts)

theorem Tokenizes.lineEnd (cut : Tokenizes text stretches) {later : List Lexeme}
    (cutRest : Tokenizes rest later) :
    Tokenizes (text ++ '\n' :: rest) (stretches ++ .lineEnd :: later) := by
  induction cut with
  | nil => exact .cons (longest_lineEnd rest) cutRest
  | cons longest _ ih =>
    rw [List.append_assoc]
    exact .cons (longest.lineEnd rest) ih

/-- A text with a line end in it is cut into the stretches before it, the line end, and the
stretches after it. -/
theorem lexemes_lineEnd (text rest : List Char) :
    lexemes (text ++ '\n' :: rest) =
      lexemes text ++ ⟨['\n'], some .newLine⟩ :: lexemes rest :=
  (tokenizes_iff.1 ((tokenizes_lexemes text).lineEnd (tokenizes_lexemes rest))).symm

/-- A text without line ends has no stretch that is one. -/
theorem lexemes_inLine (inLine : '\n' ∉ text) :
    ∀ lexeme ∈ lexemes text, lexeme.token? ≠ some .newLine := by
  intro lexeme member ends
  have cut := tokenizes_lexemes text
  obtain ⟨slice, -⟩ := (cut.spells lexeme member).eq_lineEnd (.inr ends)
  exact inLine (cut.slice_subset lexeme member (slice ▸ .head _))

/-- A plain token stands for the text that it was cut from. -/
theorem Spells.plain {token : Token} {written : String} (spells : Spells slice (some token))
    (plain : token.plain? = some written) : written.toList = slice := by
  generalize known : some token = token? at spells
  cases spells with
  | declaration statement =>
    obtain ⟨declaration, -, rfl⟩ := Option.map_eq_some_iff.1 known.symm
    cases plain
  | mark marked =>
    obtain rfl := Option.some.inj known
    simp only [marks, List.mem_cons, List.not_mem_nil, or_false, Prod.mk.injEq] at marked
    rcases marked with ⟨rfl, rfl⟩ | ⟨rfl, rfl⟩ | ⟨rfl, rfl⟩ | ⟨rfl, rfl⟩ <;> cases plain <;> rfl
  | importType | call | new | assign =>
    cases known
    cases plain
  | quoted | word | space | char =>
    cases known
    cases plain
    simp

/-- Tokens are written with characters of the text that they are found in. -/
theorem written_subset : ∀ lexeme ∈ lexemes text, ∀ token ∈ lexeme.token?,
    ∀ written ∈ token.text?, written.toList ⊆ text := by
  rintro ⟨slice, _⟩ member token ⟨⟩ written textual
  have cut := tokenizes_lexemes text
  rw [(cut.spells _ member).plain (Token.plain?_of_text? textual)]
  exact cut.slice_subset _ member

end Lexer

end Colloquy
