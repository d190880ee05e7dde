import Mathlib.Data.List.Forall2
import Mathlib.Data.List.TakeWhile
import Colloquy.Proofs.Document.References

/-!
# Substitution in one pass

A line falls into references and other characters in just one way.  An exchange is built from these
pieces: each reference is replaced by itself, and what it is replaced by is not looked at again.
-/

namespace Colloquy.Exchange

open Lexer (Identifier)
open Text (isWordChar isNameStart)

/-- A piece of a line. -/
inductive Piece where
  | reference (name : Identifier)
  | other (c : Char)

namespace Piece

/-- What a piece is replaced by: nothing for a marker, the printed form for another value, and
itself for a name that is not bound. -/
def shown (heap : Heap) (lookup : String → Option Value) : Piece → List Char
  | reference name =>
    match lookup name.text with
    | some (.marker _) => []
    | some value => (value.text heap).toList
    | none => '$' :: name.chars
  | other c => [c]

/-- The marker that a piece refers to. -/
def marker? (lookup : String → Option Value) : Piece → Option Marker
  | reference name =>
    match lookup name.text with
    | some (.marker mark) => some mark
    | _ => none
  | other _ => none

end Piece

/-- A text falls into references, as long as they can be, and other characters; a dollar sign is one
of these where no name follows it. -/
inductive Decomposes : List Char → List Piece → Prop
  | nil : Decomposes [] []
  | reference {name : Identifier} {rest : List Char} {later : List Piece} :
    (∀ c ∈ rest.head?, isWordChar c = false) → Decomposes rest later →
    Decomposes ('$' :: (name.chars ++ rest)) (.reference name :: later)
  | other {c : Char} {rest : List Char} {later : List Piece} :
    (c = '$' → ∀ d ∈ rest.head?, isNameStart d = false) → Decomposes rest later →
    Decomposes (c :: rest) (.other c :: later)

/-- Names that end where the text of each goes on otherwise are the same name. -/
theorem eq_of_chars_append {first second : Identifier} {rest left : List Char}
    (ends : ∀ c ∈ rest.head?, isWordChar c = false)
    (endsAgain : ∀ c ∈ left.head?, isWordChar c = false)
    (same : first.chars ++ rest = second.chars ++ left) : first = second ∧ rest = left := by
  obtain ⟨taken, dropped⟩ := Text.run_append_of_all first.isWordChar_of_mem ends
  obtain ⟨takenAgain, droppedAgain⟩ := Text.run_append_of_all second.isWordChar_of_mem endsAgain
  rw [same] at taken dropped
  have chars : first.chars = second.chars := taken.symm.trans takenAgain
  refine ⟨?_, dropped.symm.trans droppedAgain⟩
  obtain ⟨_, _, _, _⟩ := first
  obtain ⟨_, _, _, _⟩ := second
  cases chars
  rfl

/-- A text falls into pieces in just one way. -/
theorem Decomposes.unique {text : List Char} {first second : List Piece}
    (parts : Decomposes text first) (again : Decomposes text second) : first = second := by
  -- a dollar sign before a name is of a reference, and any other one is not
  have apart {name : Identifier} {rest : List Char} {c : Char}
      (alone : c = '$' → ∀ d ∈ (name.chars ++ rest).head?, isNameStart d = false) : c ≠ '$' := by
    intro sign
    have starts := alone sign name.first rfl
    rw [name.starts] at starts
    cases starts
  induction parts generalizing second with
  | nil =>
    cases again
    rfl
  | @reference name rest later ends _ ih =>
    generalize whole : '$' :: (name.chars ++ rest) = text at again
    cases again with
    | nil => cases whole
    | reference endsAgain laterAgain =>
      obtain ⟨rfl, rfl⟩ := eq_of_chars_append ends endsAgain (List.cons.inj whole).2
      rw [ih laterAgain]
    | other alone =>
      obtain ⟨rfl, rfl⟩ := List.cons.inj whole
      exact absurd rfl (apart alone)
  | @other c rest later alone _ ih =>
    generalize whole : c :: rest = text at again
    cases again with
    | nil => cases whole
    | reference =>
      obtain ⟨rfl, rfl⟩ := List.cons.inj whole
      exact absurd rfl (apart alone)
    | other _ laterAgain =>
      obtain ⟨rfl, rfl⟩ := List.cons.inj whole
      rw [ih laterAgain]

section Substitute

variable (heap : Heap) (lookup : String → Option Value)

/-- A reference shows its replacement in front of the rest, or attaches its marker. -/
theorem reference_eq (name : Identifier) (rest : Substituted) :
    reference heap lookup name.chars rest =
      ⟨(Piece.reference name).shown heap lookup ++ rest.text,
        ((Piece.reference name).marker? lookup).toList ++ rest.markers⟩ := by
  have named : String.ofList name.chars = name.text := rfl
  rw [reference, named, Piece.shown, Piece.marker?]
  cases lookup name.text with
  | none => rfl
  | some value => cases value <;> rfl

/-- Substitution replaces the pieces of a text one by one. -/
theorem exists_decomposes (text : List Char) :
    ∃ pieces, Decomposes text pieces ∧ substitute heap lookup text =
      ⟨pieces.flatMap (Piece.shown heap lookup), pieces.filterMap (Piece.marker? lookup)⟩ := by
  fun_induction substitute heap lookup text with
  | case1 => exact ⟨[], .nil, rfl⟩
  | case2 c rest starts ih =>
    obtain ⟨pieces, parts, same⟩ := ih
    let name : Identifier :=
      ⟨c, rest.takeWhile isWordChar, starts, fun _ => List.mem_takeWhile_imp⟩
    have ends : ∀ d ∈ (rest.dropWhile isWordChar).head?, isWordChar d = false := by
      intro d first
      have stops := List.head?_dropWhile_not isWordChar rest
      rwa [Option.mem_def.1 first] at stops
    have whole : '$' :: c :: rest = '$' :: (name.chars ++ rest.dropWhile isWordChar) := by
      rw [Identifier.chars, List.cons_append, List.takeWhile_append_dropWhile]
    refine ⟨.reference name :: pieces, whole ▸ .reference ends parts, ?_⟩
    have named : c :: rest.takeWhile isWordChar = name.chars := rfl
    rw [same, named, reference_eq, List.flatMap_cons, List.filterMap_cons]
    cases (Piece.reference name).marker? lookup <;> rfl
  | case3 c rest other ih =>
    obtain ⟨pieces, parts, same⟩ := ih
    refine ⟨.other '$' :: pieces, .other (fun _ => ?_) parts, ?_⟩
    · rintro d ⟨⟩
      simpa using other
    · rw [same]
      rfl
  | case4 c rest single ih =>
    obtain ⟨pieces, parts, same⟩ := ih
    refine ⟨.other c :: pieces, .other ?_ parts, ?_⟩
    · rintro rfl d first
      obtain ⟨left, rfl⟩ := List.head?_eq_some_iff.1 first
      exact absurd rfl (single d left rfl)
    · rw [same]
      rfl

theorem substitute_eq {text : List Char} {pieces : List Piece} (parts : Decomposes text pieces) :
    substitute heap lookup text =
      ⟨pieces.flatMap (Piece.shown heap lookup), pieces.filterMap (Piece.marker? lookup)⟩ := by
  obtain ⟨others, again, same⟩ := exists_decomposes heap lookup text
  rwa [parts.unique again]

/-- Where nothing is bound, the pieces of a text stay as they are. -/
theorem Decomposes.unbound {text : List Char} {pieces : List Piece}
    (parts : Decomposes text pieces) :
    pieces.flatMap (Piece.shown heap fun _ => none) = text ∧
      pieces.filterMap (Piece.marker? fun _ => none) = [] := by
  induction parts with
  | nil => exact ⟨rfl, rfl⟩
  | reference _ _ ih =>
    rw [List.flatMap_cons, List.filterMap_cons, ih.1, ih.2]
    exact ⟨rfl, rfl⟩
  | other _ _ ih =>
    rw [List.flatMap_cons, List.filterMap_cons, ih.1, ih.2]
    exact ⟨rfl, rfl⟩

end Substitute

/-- What a program reads or prints on a line.  The mark of input at the start of the line is no part
of it, and neither is one space behind the mark. -/
inductive Strips : List Char → Bool → List Char → Prop
  | spaced (body : List Char) : Strips ('<' :: '<' :: ' ' :: body) true body
  | unspaced {body : List Char} : body.head? ≠ some ' ' → Strips ('<' :: '<' :: body) true body
  | output {text : List Char} : ¬ ['<', '<'] <+: text → Strips text false text

theorem strips_splitInput (text : List Char) :
    Strips text (splitInput text).2 (splitInput text).1 := by
  unfold splitInput
  split
  · exact .spaced _
  · rename_i rest unspaced
    refine .unspaced fun space => ?_
    obtain ⟨left, rfl⟩ := List.head?_eq_some_iff.1 space
    exact unspaced left rfl
  · rename_i noMark
    refine .output fun ⟨left, starts⟩ => ?_
    exact noMark left starts.symm

theorem splitInput_eq {text body : List Char} {isInput : Bool}
    (strips : Strips text isInput body) : splitInput text = (body, isInput) := by
  cases strips with
  | spaced => rfl
  | unspaced unspaced =>
    unfold splitInput
    split
    · rename_i same
      cases same
      exact absurd rfl unspaced
    · rename_i same
      cases same
      rfl
    · rename_i noMark
      exact absurd rfl (noMark body)
  | output noMark =>
    unfold splitInput
    split
    · exact absurd ⟨_, rfl⟩ noMark
    · exact absurd ⟨_, rfl⟩ noMark
    · rfl

/-- A line of an interaction in its pieces. -/
structure Part where
  /-- The program reads the line. -/
  isInput : Bool
  /-- What it reads or prints there. -/
  body : List Char
  /-- The pieces of that. -/
  pieces : List Piece

/-- The line is made up of the part. -/
structure Reads (line : NumberedLine) (part : Part) : Prop where
  strips : Strips line.text.toList part.isInput part.body
  decomposes : Decomposes part.body part.pieces

namespace Part

/-- The line of an exchange with a text in place of the body. -/
def line (part : Part) (text : List Char) : ExchangeLine :=
  if part.isInput then .input (String.ofList text) else .output (String.ofList text)

/-- The text with every reference replaced. -/
def shown (heap : Heap) (lookup : String → Option Value) (part : Part) : List Char :=
  part.pieces.flatMap (Piece.shown heap lookup)

/-- The markers that are referred to, in order. -/
def markers (lookup : String → Option Value) (part : Part) : List Marker :=
  part.pieces.filterMap (Piece.marker? lookup)

/-- The line of the exchange; none where there was a marker and nothing but blanks is left. -/
def line? (heap : Heap) (lookup : String → Option Value) (part : Part) : Option ExchangeLine :=
  if part.markers lookup ≠ [] ∧ Text.allBlank (part.shown heap lookup) then none
  else some (part.line (part.shown heap lookup))

end Part

/-- The exchange that parts make up. -/
def ofParts (heap : Heap) (lookup : String → Option Value) (parts : List Part) : Exchange where
  lines := parts.filterMap (Part.line? heap lookup)
  markers := parts.flatMap (Part.markers lookup)

section Reads

variable {line : NumberedLine} {part other : Part}

theorem Reads.unique (reads : Reads line part) (again : Reads line other) : part = other := by
  have same := (splitInput_eq reads.strips).symm.trans (splitInput_eq again.strips)
  obtain ⟨isInput, body, pieces⟩ := part
  obtain ⟨_, _, others⟩ := other
  cases same
  obtain rfl : pieces = others := reads.decomposes.unique again.decomposes
  rfl

theorem exists_reads (line : NumberedLine) : ∃ part, Reads line part := by
  obtain ⟨pieces, parts, -⟩ :=
    exists_decomposes {} (fun _ => none) (splitInput line.text.toList).1
  exact ⟨⟨_, _, pieces⟩, strips_splitInput _, parts⟩

theorem ofLine_eq (heap : Heap) (lookup : String → Option Value) (reads : Reads line part) :
    ofLine heap lookup line = ((part.line? heap lookup).toList, part.markers lookup) := by
  rw [ofLine, splitInput_eq reads.strips]
  simp only [substitute_eq heap lookup reads.decomposes]
  have dropped : (!(part.markers lookup).isEmpty && Text.allBlank (part.shown heap lookup)) = true ↔
      part.markers lookup ≠ [] ∧ Text.allBlank (part.shown heap lookup) := by
    simp
  by_cases left : part.markers lookup ≠ [] ∧ Text.allBlank (part.shown heap lookup)
  · rw [Part.line?, if_pos left]
    exact if_pos (dropped.2 left)
  · rw [Part.line?, if_neg left]
    exact if_neg fun out => left (dropped.1 out)

/-- Where nothing is bound, a line keeps its text and has no markers. -/
theorem Reads.unbound (reads : Reads line part) (heap : Heap) :
    part.line? heap (fun _ => none) = some (part.line part.body) ∧
      part.markers (fun _ => none) = [] := by
  obtain ⟨shown, markers⟩ := reads.decomposes.unbound heap
  rw [Part.line?, Part.shown, Part.markers, shown, markers]
  exact ⟨if_neg fun left => left.1 rfl, rfl⟩

variable {lines : List NumberedLine} {parts : List Part}

theorem ofLines_eq (heap : Heap) (lookup : String → Option Value)
    (reads : List.Forall₂ Reads lines parts) :
    ofLines heap lookup lines = ofParts heap lookup parts := by
  induction reads with
  | nil => rfl
  | @cons _ part _ _ first _ ih =>
    simp only [ofLines, ofParts, Exchange.mk.injEq] at ih ⊢
    simp only [List.map_cons, List.flatMap_cons, ofLine_eq heap lookup first, ih,
      List.filterMap_cons, and_true]
    cases part.line? heap lookup <;> rfl

theorem ofParts_unbound (heap : Heap) (reads : List.Forall₂ Reads lines parts) :
    ofParts heap (fun _ => none) parts = ⟨parts.map fun part => part.line part.body, []⟩ := by
  induction reads with
  | nil => rfl
  | cons first _ ih =>
    obtain ⟨kept, noMarkers⟩ := first.unbound heap
    simp only [ofParts, Exchange.mk.injEq] at ih ⊢
    simp only [List.filterMap_cons, kept, List.flatMap_cons, noMarkers, ih, List.map_cons,
      List.nil_append, and_self]

end Reads

/-- Lines are made up of parts in just one way, and the exchange of the lines is that of the parts,
whatever is bound.  If nothing is, then every line keeps its text. -/
theorem ofLines_eq_ofParts (lines : List NumberedLine) :
    ∃ parts : List Part,
      (∀ others, List.Forall₂ Reads lines others ↔ others = parts) ∧
      (∀ heap lookup, ofLines heap lookup lines = ofParts heap lookup parts) ∧
      ∀ heap, ofLines heap (fun _ => none) lines =
        ⟨parts.map fun part => part.line part.body, []⟩ := by
  choose part reads using exists_reads
  have all : List.Forall₂ Reads lines (lines.map part) :=
    List.forall₂_map_right_iff.2 (List.forall₂_same.2 fun line _ => reads line)
  have unique : Relator.RightUnique Reads := fun _ _ _ reads again => reads.unique again
  refine ⟨lines.map part, fun others => ⟨fun again => ?_, ?_⟩, ?_, ?_⟩
  · exact List.right_unique_forall₂' unique again all
  · rintro rfl
    exact all
  · exact fun heap lookup => ofLines_eq heap lookup all
  · exact fun heap => (ofLines_eq heap _ all).trans (ofParts_unbound heap all)

end Colloquy.Exchange
