import Colloquy.Proofs.Document.CodeLines
import Colloquy.Proofs.Document.Printing

/-!
# File blocks in documents

A file block stores its lines under its name, whatever else they look like.  Only comments are cut
off before the block is seen.
-/

namespace Colloquy

namespace NumberedLine

/-- What a document has of a line: nothing of one that is a comment, and of any other line the text
before its comment. -/
def kept? (text : String) : Option String :=
  if isComment text.toList then none else some (String.ofList (withoutComment text.toList))

/-- A line without comments is kept as it is. -/
theorem kept?_of_not_commented {text : String} (shown : isComment text.toList = false)
    (uncommented : ¬Commented text.toList) : kept? text = some text := by
  rw [kept?, shown, withoutComment_of_not_commented uncommented, String.ofList_toList]
  rfl

theorem prefix_of_kept? {text kept : String} (keeps : kept? text = some kept) :
    kept.toList <+: text.toList := by
  rw [kept?] at keeps
  split at keeps
  · cases keeps
  · cases keeps
    rw [String.toList_ofList]
    exact prefix_withoutComment text.toList

/-- The lines of texts without carriage returns are those that are kept. -/
theorem text_ofTexts {texts : List String} (unended : ∀ text ∈ texts, '\r' ∉ text.toList)
    (number : Nat) :
    (ofTexts number (texts.map String.toList)).map (·.text) = texts.filterMap kept? := by
  induction texts generalizing number with
  | nil => rfl
  | cons text texts ih =>
    have later := ih (fun text member => unended text (.tail _ member)) (number + 1)
    have noReturn : Text.withoutReturn text.toList = text.toList :=
      if_neg fun ends => unended text (.head _) (List.mem_of_getLast? ends)
    rw [List.map_cons, ofTexts, noReturn]
    by_cases comment : isComment text.toList
    · have dropped : kept? text = none := if_pos comment
      rw [if_pos comment, List.filterMap_cons_none dropped, later]
    · have shown : kept? text = some (String.ofList (withoutComment text.toList)) := if_neg comment
      rw [if_neg comment, List.filterMap_cons_some shown, List.map_cons, later]

end NumberedLine

namespace Document

open NumberedLine (Commented Stays isComment kept?)
open Block (closingTag lower)

/-- The name of file blocks. -/
def fileId : List Char := ['f', 'i', 'l', 'e']

/-- The opening tag of a file block. -/
def fileTag (name : String) : String := "<file=" ++ name ++ ">"

/-- The text of a file block, with each tag on a line of its own. -/
def fileSource (name : String) (body : List String) : String :=
  "\n".intercalate (fileTag name :: body ++ ["</file>"])

section Source

variable {name : String} {body : List String}

theorem toList_fileTag (name : String) :
    (fileTag name).toList = '<' :: 'f' :: 'i' :: 'l' :: 'e' :: '=' :: (name.toList ++ ['>']) := by
  simp [fileTag]

theorem stays_fileTag (inLine : '\n' ∉ name.toList) (uncommented : ¬Commented name.toList) :
    Stays (fileTag name) := by
  have whole := toList_fileTag name
  refine NumberedLine.stays_of_not_commented whole (by decide) (by decide) ?_ ?_ ?_
  · simp [whole, inLine]
  · simp [whole, List.getLast?_cons]
  · have inner : ¬Commented (name.toList ++ ['>']) :=
      NumberedLine.not_commented_concat (by decide) uncommented
    have split : (fileTag name).toList = '<' :: fileId ++ '=' :: (name.toList ++ ['>']) := whole
    rw [split]
    exact NumberedLine.not_commented_append (by decide) (by decide) (by decide) inner

theorem openingTag?_fileTag (unclosed : '>' ∉ name.toList) :
    Block.openingTag? (fileTag name).toList = some (⟨fileId, some name.toList⟩, []) := by
  have letter : (fileId.headD ' ').isAlpha := by decide
  have characters : ∀ c ∈ fileId, Block.isIdChar c := List.all_eq_true.1 (by decide)
  refine Block.openingTag?_eq_some_iff.2 ⟨⟨letter, characters, by simpa using unclosed⟩, ?_⟩
  simp [toList_fileTag, fileId, Block.Tag.written, Block.argsText]

/-- The lines of a file block are its opening tag, the kept lines and its closing tag. -/
theorem ofSource_fileSource (inLine : '\n' ∉ name.toList) (uncommented : ¬Commented name.toList)
    (single : ∀ text ∈ body, '\n' ∉ text.toList) :
    NumberedLine.ofSource (fileSource name body) =
      ⟨1, fileTag name⟩ :: (NumberedLine.ofTexts 2 (body.map String.toList) ++
        [⟨2 + body.length, "</file>"⟩]) := by
  have opening := stays_fileTag inLine uncommented
  have cut : (fileSource name body).toList.splitOn '\n' =
      (fileTag name :: body ++ ["</file>"]).map String.toList := by
    rw [fileSource, String.toList_intercalate]
    refine List.splitOn_intercalate '\n' (fun part member => ?_) (by simp)
    obtain ⟨text, known, rfl⟩ := List.mem_map.1 member
    rcases List.mem_append.1 known with (_ | ⟨_, known⟩) | known
    · exact opening.1
    · exact single text known
    · rw [List.mem_singleton.1 known]
      decide
  have first : NumberedLine.ofTexts 1 [(fileTag name).toList] = [⟨1, fileTag name⟩] := by
    rw [← List.splitOn_eq_singleton opening.1]
    exact opening.2
  have last (number : Nat) :
      NumberedLine.ofTexts number [("</file>" : String).toList] = [⟨number, "</file>"⟩] := by
    rw [NumberedLine.ofTexts, if_neg (by decide)]
    rfl
  rw [NumberedLine.ofSource, cut, List.map_append, List.map_cons, List.map_cons, List.map_nil,
    ← List.singleton_append, List.append_assoc, NumberedLine.ofTexts_append, first,
    NumberedLine.ofTexts_append, last, List.length_map]
  rfl

/-- A file block is scanned as one block of the kept lines. -/
theorem scan_fileSource (unclosedName : '>' ∉ name.toList) (inLine : '\n' ∉ name.toList)
    (uncommented : ¬Commented name.toList)
    (single : ∀ text ∈ body, '\n' ∉ text.toList ∧ '\r' ∉ text.toList)
    (unclosed : ∀ text ∈ body, ¬ "</file>".toList <:+: lower text.toList) :
    ∃ lines : List NumberedLine, lines.map (·.text) = body.filterMap kept? ∧
      Block.scan (NumberedLine.ofSource (fileSource name body)) =
        ([.tagged "file" (some name) lines 1], none) := by
  have texts := NumberedLine.text_ofTexts (fun text member => (single text member).2) 2
  refine ⟨_, texts, ?_⟩
  rw [ofSource_fileSource inLine uncommented fun text member => (single text member).1]
  have closing : closingTag fileId = "</file>".toList := by decide
  have unclosedLines : ∀ line ∈ NumberedLine.ofTexts 2 (body.map String.toList),
      ¬ closingTag fileId <:+: lower line.text.toList := by
    intro line member within
    have known : line.text ∈ body.filterMap kept? := by
      rw [← texts]
      exact List.mem_map_of_mem member
    obtain ⟨text, source, keeps⟩ := List.mem_filterMap.1 known
    -- a kept line is the beginning of the written one, so that it has no closing tag either
    have front : lower line.text.toList <+: lower text.toList :=
      (NumberedLine.prefix_of_kept? keeps).map _
    rw [closing] at within
    exact unclosed text source (within.trans front.isInfix)
  have lines : Block.body? (closingTag fileId) true ⟨1, ""⟩
      (NumberedLine.ofTexts 2 (body.map String.toList) ++
        [⟨2 + body.length, String.ofList (closingTag fileId)⟩]) =
      some (NumberedLine.ofTexts 2 (body.map String.toList), []) :=
    Block.body?_closed true ⟨1, ""⟩ (by simp [Block.closingTag_ne_nil]) unclosedLines _
  have solid : NumberedLine.isBlank ⟨1, fileTag name⟩ = false := by
    simp [NumberedLine.isBlank, Text.allBlank, toList_fileTag,
      show Text.isBlank '<' = false by decide]
  have named : String.ofList (lower fileId) = "file" := by decide
  rw [closing, String.ofList_toList] at lines
  have found : Block.next ⟨1, fileTag name⟩ (NumberedLine.ofTexts 2 (body.map String.toList) ++
      [⟨2 + body.length, "</file>"⟩]) =
      .ok (.tagged "file" (some name) (NumberedLine.ofTexts 2 (body.map String.toList)) 1, []) := by
    rw [Block.next, if_neg (by simp [solid]), openingTag?_fileTag unclosedName]
    dsimp only
    rw [String.ofList_nil, closing, lines, named, Option.map_some, String.ofList_toList]
  rw [Block.scan_of_ok found, Block.scan_nil]

end Source

/-- Loading a file block stores the lines that are kept of it under its trimmed name, in place of
an earlier file of that name, and changes nothing else.  Lines without comments are kept as they
are. -/
theorem load_file (document : Document) {name : String} {body : List String}
    (solid : Text.allBlank name.toList = false) (unclosedName : '>' ∉ name.toList)
    (inLine : '\n' ∉ name.toList) (uncommented : ¬Commented name.toList)
    (single : ∀ text ∈ body, '\n' ∉ text.toList ∧ '\r' ∉ text.toList)
    (unclosed : ∀ text ∈ body, ¬ "</file>".toList <:+: lower text.toList) :
    let stored := body.filterMap kept?
    let after := { document with files := document.files.put (Text.trimmed name) stored }
    (load (fileSource name body)).run.run document = (.ok (), after) ∧
      after.file? (Text.trimmed name) = some stored ∧
      (∀ other, other ≠ Text.trimmed name → after.file? other = document.file? other) ∧
      ((∀ text ∈ body, isComment text.toList = false ∧ ¬Commented text.toList) →
        stored = body) := by
  intro stored after
  obtain ⟨lines, texts, scanned⟩ :=
    scan_fileSource unclosedName inLine uncommented single unclosed
  have named : (Text.trimmed name).isEmpty = false := by
    have nonempty : Text.trim name.toList ≠ [] := by simp [Text.trim_eq_nil_iff, solid]
    simpa [Text.trimmed, String.isEmpty_iff] using nonempty
  refine ⟨?_, Table.get?_put_self _ _ _, fun other different => Table.get?_put_of_ne different _ _,
    fun plain => ?_⟩
  · have stores : storeFile (some name) lines 1 = modify fun document =>
        { document with files := document.files.put (Text.trimmed name) stored } := by
      simp only [storeFile, Option.elim_some, named, texts, stored]
      rfl
    have processed : processAll [.tagged "file" (some name) lines 1] =
        storeFile (some name) lines 1 := by
      simp only [processAll, process, if_pos, bind_pure_unit]
    rw [load_of_scan scanned, processed, stores]
    rfl
  · have keeps : ∀ text ∈ body, kept? text = some text := fun text member =>
      NumberedLine.kept?_of_not_commented (plain text member).1 (plain text member).2
    calc
      body.filterMap kept? = body.filterMap some := List.filterMap_congr keeps
      _ = body := List.filterMap_some

/-- Blank lines, marks, tags and slashes are stored as they stand, under a name with blanks at its
ends. -/
theorem load_file_signs :
    let name := " a b "
    let body := ["", " > x = 1", "<code>", "</code>", "http://y//z", "$x // ", "\t//"]
    let document := ofCatalog .ofValues {}
    let stored := body.filterMap kept?
    let after := { document with files := document.files.put (Text.trimmed name) stored }
    Text.allBlank name.toList = false ∧ '>' ∉ name.toList ∧ '\n' ∉ name.toList ∧
      ¬Commented name.toList ∧ (∀ text ∈ body, '\n' ∉ text.toList ∧ '\r' ∉ text.toList) ∧
      (∀ text ∈ body, ¬ "</file>".toList <:+: lower text.toList) ∧
      Text.trimmed name = "a b" ∧
      stored = ["", " > x = 1", "<code>", "</code>", "http://y//z", "$x"] ∧
      (load (fileSource name body)).run.run document = (.ok (), after) ∧
      after.file? (Text.trimmed name) = some stored := by
  intro name body document stored after
  have solid : Text.allBlank name.toList = false := by decide +kernel
  have unclosedName : '>' ∉ name.toList := by decide +kernel
  have inLine : '\n' ∉ name.toList := by decide +kernel
  have uncommented : ¬Commented name.toList := by decide +kernel
  have single : ∀ text ∈ body, '\n' ∉ text.toList ∧ '\r' ∉ text.toList := by decide +kernel
  have unclosed : ∀ text ∈ body, ¬ "</file>".toList <:+: lower text.toList := by decide +kernel
  obtain ⟨loads, files, -, -⟩ :=
    load_file document solid unclosedName inLine uncommented single unclosed
  exact ⟨solid, unclosedName, inLine, uncommented, single, unclosed, by decide +kernel,
    by decide +kernel, loads, files⟩

/-- Two slashes behind a blank begin a comment in a file, too. -/
theorem load_file_comment :
    let name := "n"
    let body := ["a // b"]
    let loaded := (load (fileSource name body)).run.run (ofCatalog .ofValues {})
    Text.allBlank name.toList = false ∧ '>' ∉ name.toList ∧ '\n' ∉ name.toList ∧
      '\r' ∉ name.toList ∧ (∀ text ∈ body, '\n' ∉ text.toList ∧ '\r' ∉ text.toList) ∧
      (∀ text ∈ body, ¬ "</file>".toList <:+: lower text.toList) ∧ loaded.1 = .ok () ∧
      loaded.2.file? (Text.trimmed name) = some ["a"] ∧
      loaded.2.file? (Text.trimmed name) ≠ some body := by
  decide +kernel

end Document

end Colloquy
