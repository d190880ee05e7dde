import Mathlib.Data.List.TakeWhile
import Colloquy.Document.Block
import Colloquy.Proofs.Text.Cut
import Colloquy.Proofs.Text.Word

/-!
# Tags

An opening tag is read if and only if one is written at the start of a text, and a closing tag is
found if and only if it occurs in some letter case.
-/

namespace Colloquy

namespace Block

@[simp]
theorem lower_nil : lower [] = [] := rfl

@[simp]
theorem lower_cons (c : Char) (text : List Char) : lower (c :: text) = c.toLower :: lower text :=
  rfl

@[simp]
theorem lower_append (first second : List Char) :
    lower (first ++ second) = lower first ++ lower second :=
  List.map_append

@[simp]
theorem lower_lower (text : List Char) : lower (lower text) = lower text := by
  simp [lower, Text.toLower_of_not_isUpper (Text.not_isUpper_toLower _)]

/-- A closing tag is in lower case. -/
@[simp]
theorem lower_closingTag (id : List Char) : lower (closingTag id) = closingTag id := by
  simp [closingTag, show '<'.toLower = '<' by decide, show '/'.toLower = '/' by decide,
    show '>'.toLower = '>' by decide]

@[simp]
theorem closingTag_lower (id : List Char) : closingTag (lower id) = closingTag id := by
  simp [closingTag]

theorem closingTag_ne_nil (id : List Char) : closingTag id ≠ [] := by
  simp [closingTag]

/-- A closing tag is missed just in case it does not occur in any letter case. -/
theorem cutAtClosing?_eq_none_iff {closing text : List Char} :
    cutAtClosing? closing text = none ↔ ¬ closing <:+: lower text := by
  rw [cutAtClosing?, Option.map_eq_none_iff, Text.cutAt?_eq_none_iff]

theorem cutAtClosing?_closingTag (id : List Char) :
    cutAtClosing? (closingTag id) (closingTag id) = some ([], []) := by
  have found := Text.cutAt?_append (closingTag_ne_nil id) []
  rw [List.append_nil] at found
  simp [cutAtClosing?, found]

/-- A closing tag splits the text around it, up to letter case. -/
theorem lower_of_cutAtClosing? {closing text before after : List Char}
    (cut : cutAtClosing? closing text = some (before, after)) :
    lower text = lower before ++ (closing ++ lower after) := by
  obtain ⟨⟨front, back⟩, found, same⟩ := Option.map_eq_some_iff.1 cut
  have whole := Text.append_of_cutAt? found
  cases same
  have taken : lower (text.take front.length) = front := by
    rw [lower, List.map_take]
    change (lower text).take front.length = front
    rw [whole, List.append_assoc, List.take_left]
  have dropped : lower (text.drop (front.length + closing.length)) = back := by
    rw [lower, List.map_drop]
    change (lower text).drop (front.length + closing.length) = back
    rw [whole, ← List.length_append, List.drop_left]
  rw [taken, dropped, whole, List.append_assoc]

/-- The text between the name of a tag and its end. -/
def argsText (args : Option (List Char)) : List Char := args.elim [] ('=' :: ·)

namespace Tag

/-- The tag as it is written: `<id>` or `<id=args>`. -/
def written (tag : Tag) : List Char := '<' :: tag.id ++ argsText tag.args ++ ['>']

/-- The name of the tag begins with a letter and goes on with letters, digits, underscores and
hyphens, and its arguments do not end the tag. -/
structure WellFormed (tag : Tag) : Prop where
  /-- A letter comes first. -/
  letter : (tag.id.headD ' ').isAlpha
  /-- The name has the characters of names only. -/
  name : ∀ c ∈ tag.id, isIdChar c
  /-- No argument has the end of a tag in it. -/
  args : ∀ args ∈ tag.args, '>' ∉ args

end Tag

theorem args?_eq_some_iff {written : List Char} {args : Option (List Char)} :
    args? written = some args ↔ written = argsText args := by
  unfold args?
  split
  · cases args <;> simp [argsText]
  · cases args <;> simp [argsText, eq_comm]
  · rename_i unwritten unmarked
    cases args with
    | none => simpa [argsText] using unwritten
    | some args => simpa [argsText] using unmarked args

theorem not_mem_argsText_iff {args : Option (List Char)} :
    '>' ∉ argsText args ↔ ∀ text ∈ args, '>' ∉ text := by
  cases args <;> simp [argsText]

/-- The name of a written tag ends where its arguments or its end begin. -/
theorem span_name {name : List Char} (isName : ∀ c ∈ name, isIdChar c)
    (args : Option (List Char)) (rest : List Char) :
    (name ++ (argsText args ++ '>' :: rest)).takeWhile isIdChar = name ∧
      (name ++ (argsText args ++ '>' :: rest)).dropWhile isIdChar =
        argsText args ++ '>' :: rest := by
  have equals : isIdChar '=' = false := by decide
  have greater : isIdChar '>' = false := by decide
  rw [List.takeWhile_append_of_pos isName, List.dropWhile_append_of_pos isName]
  cases args <;> simp [argsText, equals, greater]

/-- An opening tag is read just in case the text begins with a well-formed tag. -/
theorem openingTag?_eq_some_iff {text rest : List Char} {tag : Tag} :
    openingTag? text = some (tag, rest) ↔ tag.WellFormed ∧ text = tag.written ++ rest := by
  constructor
  · intro opened
    unfold openingTag? at opened
    split at opened
    · rename_i inner
      dsimp only at opened
      split at opened
      · rename_i letter
        simp only [Option.bind_eq_bind, Option.bind_eq_some_iff, Option.pure_def,
          Option.some.injEq, Prod.mk.injEq, Prod.exists] at opened
        obtain ⟨written, after, cut, args, read, rfl, rfl⟩ := opened
        obtain ⟨split, absent⟩ := Text.cutAt?_singleton_iff.1 cut
        obtain rfl := args?_eq_some_iff.1 read
        refine ⟨⟨letter, fun c => List.mem_takeWhile_imp, not_mem_argsText_iff.1 absent⟩, ?_⟩
        have whole := List.takeWhile_append_dropWhile (p := isIdChar) (l := inner)
        rw [split] at whole
        simpa [Tag.written] using whole.symm
      · cases opened
    · cases opened
  · rintro ⟨⟨letter, name, args⟩, rfl⟩
    obtain ⟨taken, dropped⟩ := span_name name tag.args rest
    have cut : Text.cutAt? ['>'] (argsText tag.args ++ '>' :: rest) =
        some (argsText tag.args, rest) :=
      Text.cutAt?_singleton_iff.2 ⟨rfl, not_mem_argsText_iff.2 args⟩
    have read : args? (argsText tag.args) = some tag.args := args?_eq_some_iff.2 rfl
    have text : tag.written ++ rest = '<' :: (tag.id ++ (argsText tag.args ++ '>' :: rest)) := by
      simp [Tag.written]
    rw [text, openingTag?]
    dsimp only
    rw [taken, dropped, if_pos letter, cut]
    simp [read]

/-- No opening tag is read just in case the text does not begin with a well-formed tag. -/
theorem openingTag?_eq_none_iff {text : List Char} :
    openingTag? text = none ↔ ∀ tag : Tag, tag.WellFormed → ¬ tag.written <+: text := by
  rw [Option.eq_none_iff_forall_not_mem]
  constructor
  · rintro unread tag wellFormed ⟨rest, whole⟩
    exact unread (tag, rest) (openingTag?_eq_some_iff.2 ⟨wellFormed, whole.symm⟩)
  · rintro unwritten ⟨tag, rest⟩ opened
    obtain ⟨wellFormed, whole⟩ := openingTag?_eq_some_iff.1 opened
    exact unwritten tag wellFormed ⟨rest, whole.symm⟩

end Block

end Colloquy
