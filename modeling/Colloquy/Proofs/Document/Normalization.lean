import Mathlib.Data.List.TakeWhile
import Colloquy.Proofs.Document.Comments

/-!
# Which lines a document keeps, and what of them

A document keeps each line that is no comment, up to the first comment in it, under the number that
it has in the source.  Kept lines are lines without comments: joined again, if there are any, they
are all kept as they are.
-/

namespace Colloquy

namespace NumberedLine

open Text (isSpacing allBlank)

/-- The raw lines of a source: they have no line ends, and joined by line ends they are the
source. -/
structure RawLines (source : String) (raws : List (List Char)) : Prop where
  /-- There is one at least. -/
  nonempty : raws ≠ []
  /-- None of them has a line end. -/
  inLine : ∀ raw ∈ raws, '\n' ∉ raw
  /-- Joined they are the source. -/
  joined : ['\n'].intercalate raws = source.toList

/-- Every source has raw lines, and only these. -/
theorem rawLines_iff {source : String} {raws : List (List Char)} :
    RawLines source raws ↔ raws = source.toList.splitOn '\n' := by
  constructor
  · rintro ⟨nonempty, inLine, joined⟩
    rw [← joined, List.splitOn_intercalate '\n' inLine nonempty]
  · rintro rfl
    exact ⟨List.splitOn_ne_nil '\n' _, fun _ => Text.not_mem_of_mem_splitOn,
      List.intercalate_splitOn '\n'⟩

/-- The text of a raw line: one carriage return at its end is left out. -/
inductive Unreturned : List Char → List Char → Prop
  | returned (text : List Char) : Unreturned (text ++ ['\r']) text
  | plain {text : List Char} (unended : text.getLast? ≠ some '\r') : Unreturned text text

theorem unreturned_iff {raw text : List Char} :
    Unreturned raw text ↔ Text.withoutReturn raw = text := by
  constructor
  · rintro (text | unended)
    · simp [Text.withoutReturn]
    · exact if_neg unended
  · rintro rfl
    by_cases ends : raw.getLast? = some '\r'
    · rw [Text.withoutReturn, if_pos ends]
      obtain ⟨text, rfl⟩ := List.getLast?_eq_some_iff.1 ends
      rw [List.dropLast_concat]
      exact .returned text
    · rw [Text.withoutReturn, if_neg ends]
      exact .plain ends

/-- The first characters of the text that are no blanks are two slashes. -/
def Remark (text : List Char) : Prop :=
  ∃ blanks rest, allBlank blanks ∧ text = blanks ++ '/' :: '/' :: rest

theorem isComment_iff {text : List Char} : isComment text ↔ Remark text := by
  rw [isComment, List.isPrefixOf_iff_prefix]
  constructor
  · rintro ⟨rest, starts⟩
    refine ⟨text.takeWhile Text.isBlank, rest, ?_, ?_⟩
    · exact List.all_eq_true.2 fun c => List.mem_takeWhile_imp
    · rw [Text.trimStart] at starts
      exact (List.takeWhile_append_dropWhile.symm).trans (congrArg _ starts.symm)
  · rintro ⟨blanks, rest, blank, rfl⟩
    rw [Text.trimStart_append_of_allBlank blank, Text.trimStart_eq_self (by simp; decide)]
    exact ⟨rest, rfl⟩

/-- A carriage return at its end does not make a line a comment. -/
theorem Unreturned.remark_iff {raw text : List Char} (unreturned : Unreturned raw text) :
    Remark raw ↔ Remark text := by
  cases unreturned with
  | plain => exact Iff.rfl
  | returned =>
    constructor
    · rintro ⟨blanks, rest, blank, split⟩
      obtain rfl | ⟨rest, last, rfl⟩ := List.eq_nil_or_concat rest
      · have final := congrArg List.getLast? split
        simp at final
      · refine ⟨blanks, rest, blank, ?_⟩
        have whole : text ++ ['\r'] = (blanks ++ '/' :: '/' :: rest) ++ [last] := by simp [split]
        exact (List.append_inj' whole rfl).1
    · rintro ⟨blanks, rest, blank, rfl⟩
      exact ⟨blanks, rest ++ ['\r'], blank, by simp⟩

/-- Two slashes stand behind the front, which ends with a space or a tab; of an empty front `spaced`
says whether there is one before it. -/
structure CommentBehind (spaced : Bool) (text front : List Char) : Prop where
  /-- The slashes stand behind the front. -/
  slashes : ∃ comment, text = front ++ '/' :: '/' :: comment
  /-- A space or a tab stands before them. -/
  after : front.getLast?.elim spaced isSpacing = true

theorem commentBehind_cons_iff {spaced : Bool} {c : Char} {text front : List Char} :
    CommentBehind spaced (c :: text) (c :: front) ↔ CommentBehind (isSpacing c) text front := by
  have last : (c :: front).getLast?.elim spaced isSpacing =
      front.getLast?.elim (isSpacing c) isSpacing := by
    rw [List.getLast?_cons]
    cases front.getLast? <;> rfl
  constructor
  · rintro ⟨⟨comment, split⟩, after⟩
    exact ⟨⟨comment, (List.cons.inj split).2⟩, last ▸ after⟩
  · rintro ⟨⟨comment, split⟩, after⟩
    exact ⟨⟨comment, congrArg (c :: ·) split⟩, last ▸ after⟩

theorem commentBehind_nil_iff {spaced : Bool} {text : List Char} :
    CommentBehind spaced text [] ↔ spaced ∧ ∃ comment, text = '/' :: '/' :: comment :=
  ⟨fun ⟨slashes, after⟩ => ⟨after, slashes⟩, fun ⟨after, slashes⟩ => ⟨slashes, after⟩⟩

/-- The front of the first comment is found, and there is none before it. -/
theorem commentBehind_of_beforeComment? {spaced : Bool} {text front : List Char}
    (found : beforeComment? spaced text = some front) :
    CommentBehind spaced text front ∧
      ∀ other, CommentBehind spaced text other → front.length ≤ other.length := by
  fun_induction beforeComment? spaced text generalizing front with
  | case1 rest =>
    cases found
    exact ⟨commentBehind_nil_iff.2 ⟨rfl, rest, rfl⟩, fun other _ => Nat.zero_le _⟩
  | case2 spaced rest unspaced ih =>
    obtain ⟨inner, later, rfl⟩ := Option.map_eq_some_iff.1 found
    obtain ⟨behind, first⟩ := ih later
    have solid : isSpacing '/' = false := by decide
    have step (other : List Char) :
        CommentBehind spaced ('/' :: '/' :: rest) ('/' :: '/' :: other) ↔
          CommentBehind false rest other := by
      rw [commentBehind_cons_iff, commentBehind_cons_iff, solid]
    refine ⟨(step inner).2 behind, fun other met => ?_⟩
    -- neither slash of the pair follows a space, so the other front has both of them
    rcases other with _ | ⟨c, _ | ⟨d, other⟩⟩
    · exact absurd (commentBehind_nil_iff.1 met).1 unspaced
    · obtain ⟨⟨comment, split⟩, after⟩ := met
      obtain rfl := (List.cons.inj split).1
      rw [List.getLast?_singleton, Option.elim_some, solid] at after
      cases after
    · obtain ⟨comment, split⟩ := met.slashes
      simp only [List.cons_append, List.cons.injEq] at split
      obtain ⟨rfl, rfl, -⟩ := split
      exact Nat.add_le_add_right (first other ((step other).1 met)) 2
  | case3 spaced c rest single ih =>
    obtain ⟨inner, later, rfl⟩ := Option.map_eq_some_iff.1 found
    obtain ⟨behind, first⟩ := ih later
    refine ⟨commentBehind_cons_iff.2 behind, fun other met => ?_⟩
    cases other with
    | nil =>
      obtain ⟨-, comment, split⟩ := commentBehind_nil_iff.1 met
      obtain ⟨rfl, rfl⟩ := List.cons.inj split
      exact absurd rfl (single comment rfl)
    | cons d other =>
      obtain ⟨comment, split⟩ := met.slashes
      obtain ⟨rfl, -⟩ := List.cons.inj split
      exact Nat.succ_le_succ (first other (commentBehind_cons_iff.1 met))
  | case4 => cases found

/-- There are two slashes after a space or a tab just in case some front ends with one before
them. -/
theorem commented_iff {text : List Char} :
    Commented text ↔ ∃ front, CommentBehind false text front := by
  constructor
  · rintro ⟨c, spacing, front, comment, split⟩
    refine ⟨front ++ [c], ⟨comment, ?_⟩, ?_⟩
    · simp [← split]
    · simpa using spacing
  · rintro ⟨front, ⟨comment, rfl⟩, after⟩
    obtain rfl | ⟨front, c, rfl⟩ := List.eq_nil_or_concat front
    · cases after
    · exact ⟨c, by simpa using after, front, comment, by simp⟩

/-- What is kept of a text: all of it if it has no comment, and else what stands before the first
comment, without the blanks at its end. -/
inductive Shows (text : List Char) : List Char → Prop
  | whole : ¬Commented text → Shows text text
  | cut {front shown blanks : List Char} : CommentBehind false text front →
    (∀ other, CommentBehind false text other → front.length ≤ other.length) →
    front = shown ++ blanks → allBlank blanks → (∀ c ∈ shown.getLast?, Text.isBlank c = false) →
    Shows text shown

variable {text shown : List Char}

theorem shows_withoutComment (text : List Char) : Shows text (withoutComment text) := by
  rw [withoutComment]
  cases found : beforeComment? false text with
  | none => exact .whole (beforeComment?_eq_none_iff.1 found).2
  | some front =>
    obtain ⟨behind, first⟩ := commentBehind_of_beforeComment? found
    obtain ⟨final, blanks, blank, split⟩ := Text.trimEnd_eq_iff.1 (rfl : Text.trimEnd front = _)
    exact .cut behind first split blank final

theorem Shows.eq (shows : Shows text shown) : shown = withoutComment text := by
  cases shows with
  | whole uncommented => exact (withoutComment_of_not_commented uncommented).symm
  | @cut front _ blanks behind first split blank final =>
    cases found : beforeComment? false text with
    | none => exact absurd (commented_iff.2 ⟨front, behind⟩) (beforeComment?_eq_none_iff.1 found).2
    | some other =>
      obtain ⟨met, least⟩ := commentBehind_of_beforeComment? found
      obtain ⟨⟨comment, whole⟩, ⟨remark, again⟩⟩ := And.intro behind.slashes met.slashes
      have lengths : front.length = other.length :=
        Nat.le_antisymm (first other met) (least front behind)
      obtain ⟨rfl, -⟩ := List.append_inj (whole.symm.trans again) lengths
      rw [withoutComment, found]
      exact (Text.trimEnd_eq_iff.2 ⟨final, blanks, blank, split⟩).symm

/-- What is kept of a text has no comment. -/
theorem Shows.not_commented (shows : Shows text shown) : ¬Commented shown := by
  cases shows with
  | whole uncommented => exact uncommented
  | @cut front _ blanks behind first split =>
    intro commented
    obtain ⟨other, ⟨comment, rest⟩, after⟩ := commented_iff.1 commented
    obtain ⟨remark, whole⟩ := behind.slashes
    have earlier : CommentBehind false text other :=
      ⟨⟨comment ++ (blanks ++ '/' :: '/' :: remark), by simp [whole, split, rest]⟩, after⟩
    have least := first other earlier
    simp only [split, rest, List.length_append, List.length_cons] at least
    omega

theorem Shows.starts (shows : Shows text shown) : shown <+: text :=
  shows.eq ▸ prefix_withoutComment text

/-- A raw line is kept as a text: it is no comment, and the text is what is kept of it without a
carriage return at its end. -/
structure Keeps (raw shown : List Char) : Prop where
  /-- The line is no comment. -/
  visible : ¬Remark raw
  /-- The text is what is kept. -/
  shows : ∃ text, Unreturned raw text ∧ Shows text shown

theorem keeps_iff {raw shown : List Char} :
    Keeps raw shown ↔ isComment (Text.withoutReturn raw) = false ∧
      shown = withoutComment (Text.withoutReturn raw) := by
  have unreturned : Unreturned raw (Text.withoutReturn raw) := unreturned_iff.2 rfl
  rw [← Bool.not_eq_true, isComment_iff, ← unreturned.remark_iff]
  constructor
  · rintro ⟨visible, text, again, shows⟩
    obtain rfl := unreturned_iff.1 again
    exact ⟨visible, shows.eq⟩
  · rintro ⟨visible, rfl⟩
    exact ⟨visible, _, unreturned, shows_withoutComment _⟩

/-- The lines of raw lines are what is kept of them, under the numbers of their places. -/
theorem mem_ofTexts_iff {number : Nat} {raws : List (List Char)} {line : NumberedLine} :
    line ∈ ofTexts number raws ↔ ∃ index raw, raws[index]? = some raw ∧
      line.number = number + index ∧ Keeps raw line.text.toList := by
  induction raws generalizing number with
  | nil => simp [ofTexts]
  | cons raw raws ih =>
    have here : (∃ index kept, (raw :: raws)[index]? = some kept ∧ line.number = number + index ∧
        Keeps kept line.text.toList) ↔ (line.number = number ∧ Keeps raw line.text.toList) ∨
          line ∈ ofTexts (number + 1) raws := by
      rw [ih]
      constructor
      · rintro ⟨_ | index, kept, found, numbered, keeps⟩
        · cases found
          exact .inl ⟨numbered, keeps⟩
        · exact .inr ⟨index, kept, found, by omega, keeps⟩
      · rintro (⟨numbered, keeps⟩ | ⟨index, kept, found, numbered, keeps⟩)
        · exact ⟨0, raw, rfl, numbered, keeps⟩
        · exact ⟨index + 1, kept, found, by omega, keeps⟩
    rw [here, keeps_iff, ofTexts]
    obtain ⟨lineNumber, text⟩ := line
    have same (chars : List Char) : text.toList = chars ↔ text = String.ofList chars := by
      rw [← String.toList_inj, String.toList_ofList]
    cases isComment (Text.withoutReturn raw) <;> simp [same]

theorem Keeps.not_remark {raw shown : List Char} (keeps : Keeps raw shown) : ¬Remark shown := by
  obtain ⟨visible, text, unreturned, shows⟩ := keeps
  rintro ⟨blanks, rest, blank, rfl⟩
  obtain ⟨more, rfl⟩ := shows.starts
  exact visible (unreturned.remark_iff.2 ⟨blanks, rest ++ more, blank, by simp⟩)

/-- What is kept of a line that does not end with two carriage returns is kept as it is. -/
theorem Keeps.stays {raw : List Char} {shown : String} (keeps : Keeps raw shown.toList)
    (inLine : '\n' ∉ raw) (once : ¬['\r', '\r'] <:+ raw) : Stays shown := by
  obtain ⟨text, unreturned, shows⟩ := keeps.shows
  have within : text <+: raw := by
    cases unreturned with
    | returned => exact List.prefix_append ..
    | plain => exact List.prefix_rfl
  have visible : isComment shown.toList = false := by
    rw [← Bool.not_eq_true, isComment_iff]
    exact keeps.not_remark
  refine stays_of_shown (fun member => inLine ((shows.starts.trans within).subset member)) ?_
    visible shows.not_commented
  intro ends
  cases shows with
  | whole =>
    cases unreturned with
    | returned =>
      obtain ⟨front, split⟩ := List.getLast?_eq_some_iff.1 ends
      exact once ⟨front, by simp [split]⟩
    | plain unended => exact unended ends
  | cut _ _ _ _ final => exact absurd (final _ ends) (by decide)

theorem map_text_numbered (number : Nat) (texts : List String) :
    (numbered number texts).map (·.text) = texts := by
  induction texts generalizing number with
  | nil => rfl
  | cons text texts ih => rw [numbered_cons, List.map_cons, ih]

/-- The lines of a source stand in the order of their numbers.  A raw line is left out exactly if it
is a comment, what is kept of any other is neither a comment nor has one, and if there are lines at
all and none ended with two carriage returns, then joined they have the same texts again. -/
theorem ofSource_keeps (source : String) :
    ∃ raws, RawLines source raws ∧
      (ofSource source).Pairwise (fun first second => first.number < second.number) ∧
      (∀ index raw, raws[index]? = some raw →
        ((∀ line ∈ ofSource source, line.number ≠ index + 1) ↔ Remark raw)) ∧
      (∀ line, line ∈ ofSource source ↔ ∃ index raw, raws[index]? = some raw ∧
        line.number = index + 1 ∧ Keeps raw line.text.toList) ∧
      (∀ line ∈ ofSource source, ¬Commented line.text.toList ∧ ¬Remark line.text.toList) ∧
      (ofSource source ≠ [] → (∀ raw ∈ raws, ¬['\r', '\r'] <:+ raw) →
        (ofSource ("\n".intercalate ((ofSource source).map (·.text)))).map (·.text) =
          (ofSource source).map (·.text)) := by
  have raw : RawLines source (source.toList.splitOn '\n') := rawLines_iff.2 rfl
  have lines (line : NumberedLine) : line ∈ ofSource source ↔ ∃ index raw,
      (source.toList.splitOn '\n')[index]? = some raw ∧ line.number = index + 1 ∧
        Keeps raw line.text.toList := by
    simp only [ofSource, mem_ofTexts_iff, Nat.add_comm 1]
  refine ⟨_, raw, pairwise_ofTexts 1 _, fun index raw found => ?_, lines, fun line listed => ?_,
    fun some once => ?_⟩
  · constructor
    · intro dropped
      by_contra visible
      have keeps : Keeps raw (withoutComment (Text.withoutReturn raw)) :=
        ⟨visible, _, unreturned_iff.2 rfl, shows_withoutComment _⟩
      let line : NumberedLine :=
        ⟨index + 1, String.ofList (withoutComment (Text.withoutReturn raw))⟩
      exact dropped line ((lines line).2 ⟨index, raw, found, rfl, by simpa [line]⟩) rfl
    · intro remark line listed numbered
      obtain ⟨other, kept, placed, number, keeps⟩ := (lines line).1 listed
      obtain rfl : other = index := by omega
      obtain rfl := Option.some.inj (placed.symm.trans found)
      exact keeps.visible remark
  · obtain ⟨index, raw, -, -, keeps⟩ := (lines line).1 listed
    obtain ⟨text, -, shows⟩ := keeps.shows
    exact ⟨shows.not_commented, keeps.not_remark⟩
  · have stay : ∀ text ∈ (ofSource source).map (·.text), Stays text := by
      intro text member
      obtain ⟨line, listed, rfl⟩ := List.mem_map.1 member
      obtain ⟨index, kept, placed, -, keeps⟩ := (lines line).1 listed
      have known := List.mem_of_getElem? placed
      exact keeps.stays (raw.inLine kept known) (once kept known)
    rw [ofSource_intercalate (by simpa using some) stay, map_text_numbered]

/-- Lines with slashes in a run, slashes behind a blank of another kind, and slashes behind no
blank. -/
def slashed : String := "a ///b\n\u00a0//\r\n/ // //\r\nc// d\t"

/-- A comment goes with the blanks before it, a line of nothing else goes altogether, and slashes
behind a letter stay. -/
theorem ofSource_keeps_slashed :
    (ofSource slashed).map (·.text) = ["a", "/", "c// d\t"] ∧
      (ofSource ("\n".intercalate ((ofSource slashed).map (·.text)))).map (·.text) =
        ["a", "/", "c// d\t"] := by
  have texts : (ofSource slashed).map (·.text) = ["a", "/", "c// d\t"] := by decide +kernel
  obtain ⟨raws, raw, -, -, -, -, again⟩ := ofSource_keeps slashed
  refine ⟨texts, (again ?_ ?_).trans texts⟩
  · exact fun none => by simp [none] at texts
  · rw [rawLines_iff.1 raw]
    decide +kernel

/-- Where every line is a comment nothing is kept; but no text is one blank line. -/
theorem ofSource_keeps_nothing :
    (∀ raw ∈ "//".toList.splitOn '\n', ¬['\r', '\r'] <:+ raw) ∧
      (ofSource "//").map (·.text) = [] ∧
      (ofSource ("\n".intercalate ((ofSource "//").map (·.text)))).map (·.text) = [""] := by
  decide +kernel

end NumberedLine

end Colloquy
