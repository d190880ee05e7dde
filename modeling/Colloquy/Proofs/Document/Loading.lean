import Colloquy.Document.Basic
import Colloquy.Proofs.Document.Appending

/-!
# Loading in pieces

Loading two sources with a blank line between them loads the first one and then the second one, as
one that stands further down.
-/

namespace Colloquy

namespace Document

open Reducer (run_bind_of_ok run_bind_of_error run_adapt adapt_bind adapt_pure)

section Lowered

variable (count : Nat)

theorem run_runCode (line : NumberedLine) (document : Document) :
    (runCode line).run.run document =
      let (result, session) :=
        (Evaluation.evaluate Session.scope line.text line.number).run.run document.session
      (result.map fun _ => (), { document with session }) := by
  have steps : (runCode line).run.run document =
      let (result, session) :=
        (Evaluation.evaluate Session.scope line.text line.number).run.run document.session
      ((do let _ ← (liftM result : Loading (Option Value))) : Loading Unit).run.run
        { document with session } :=
    rfl
  rw [steps]
  cases (Evaluation.evaluate Session.scope line.text line.number).run.run document.session with
  | mk result session => cases result <;> rfl

theorem runCode_lowered (line : NumberedLine) :
    runCode (line.lowered count) = (runCode line).adapt (Error.lowered count) := by
  apply ExceptT.ext
  apply StateT.ext
  intro document
  have further := Evaluation.evaluate_lowered Session.scope line.text line.number count
  rw [run_adapt, run_runCode, run_runCode, NumberedLine.lowered, further, run_adapt]
  cases (Evaluation.evaluate Session.scope line.text line.number).run.run document.session with
  | mk result session => cases result <;> rfl

theorem runLines_lowered (lines : List NumberedLine) :
    runLines (lines.map (·.lowered count)) = (runLines lines).adapt (Error.lowered count) := by
  induction lines with
  | nil => rfl
  | cons line lines ih =>
    rw [List.map_cons, runLines, runLines, adapt_bind, runCode_lowered, ih]

theorem storeFile_lowered (args : Option String) (body : List NumberedLine) (line : Nat) :
    storeFile args (body.map (·.lowered count)) (line + count) =
      (storeFile args body line).adapt (Error.lowered count) := by
  have texts : (body.map (·.lowered count)).map (·.text) = body.map (·.text) := by simp
  unfold storeFile
  rw [texts]
  dsimp only
  split <;> rfl

theorem process_lowered (block : Block) :
    process (block.lowered count) = (process block).adapt (Error.lowered count) := by
  cases block with
  | tagged id args body line =>
    simp only [Block.lowered, process]
    split
    · exact storeFile_lowered count args body line
    · split
      · exact runLines_lowered count body
      · rfl
  | code line => exact runCode_lowered count line
  | interaction lines =>
    have same (heap : Heap) (lookup : String → Option Value) :
        Exchange.ofLines heap lookup (lines.map (·.lowered count)) =
          Exchange.ofLines heap lookup lines := by
      rw [Exchange.ofLines, List.map_map]
      rfl
    simp only [Block.lowered, process, same]
    rfl
  | blank => rfl

theorem processAll_lowered (blocks : List Block) :
    processAll (blocks.map (·.lowered count)) =
      (processAll blocks).adapt (Error.lowered count) := by
  induction blocks with
  | nil => rfl
  | cons block blocks ih =>
    rw [List.map_cons, processAll, processAll, adapt_bind, process_lowered, ih]

end Lowered

theorem processAll_append (first second : List Block) :
    processAll (first ++ second) = (do
      processAll first
      processAll second) := by
  induction first with
  | nil => rfl
  | cons block first ih =>
    simp only [List.cons_append, processAll, ih, bind_assoc]

/-- Blank runs do nothing. -/
theorem processAll_solid (blocks : List Block) :
    processAll (blocks.filter (· ≠ .blank)) = processAll blocks := by
  induction blocks with
  | nil => rfl
  | cons block blocks ih =>
    cases block with
    | blank => exact ih
    | tagged | code | interaction => exact congrArg (process _ >>= fun _ => ·) ih

/-- Processes blocks and fails with the error that they end with, if there is one. -/
def processScan (scanned : List Block × Option ParseError) : Loading Unit := do
  processAll scanned.1
  if let some error := scanned.2 then throw (.parse error)

theorem load_eq (source : String) :
    load source = processScan (Block.outline (NumberedLine.ofSource source)) := by
  rw [processScan, Block.outline, processAll_solid]
  rfl

theorem processScan_lowered (count : Nat) (lines : List NumberedLine) :
    processScan (Block.outline (lines.map (·.lowered count))) =
      (processScan (Block.outline lines)).adapt (Error.lowered count) := by
  rw [processScan, processScan, Block.outline_lowered, processAll_lowered, adapt_bind]
  cases (Block.outline lines).2 <;> rfl

theorem processScan_append (blocks : List Block) (scanned : List Block × Option ParseError) :
    processScan (blocks ++ scanned.1, scanned.2) = (do
      processAll blocks
      processScan scanned) := by
  simp only [processScan, processAll_append, bind_assoc]

/-- A source that is scanned without an error is loaded before what follows it. -/
theorem load_append {first : String}
    (sound : (Block.scan (NumberedLine.ofSource first)).2 = none) (second : String) :
    load (first ++ "\n\n" ++ second) = (do
      load first
      (load second).adapt (Error.lowered (NumberedLine.lineCount first + 1))) := by
  have blank : NumberedLine.isBlank ⟨1 + NumberedLine.lineCount first, ""⟩ := rfl
  have whole : load first = processAll (Block.outline (NumberedLine.ofSource first)).1 := by
    rw [load_eq, processScan, Block.outline, sound]
    exact bind_pure _
  rw [load_eq, NumberedLine.ofSource_blankLine, Block.outline_append sound blank,
    processScan_append, processScan_lowered, ← whole, ← load_eq]

/-- Only a source that is scanned without an error is loaded. -/
theorem sound_of_load {source : String} {document : Document}
    (loaded : ((load source).run.run document).1 = .ok ()) :
    (Block.scan (NumberedLine.ofSource source)).2 = none := by
  cases fault : (Block.scan (NumberedLine.ofSource source)).2 with
  | none => rfl
  | some error =>
    have whole : load source = (do
        processAll (Block.scan (NumberedLine.ofSource source)).1
        throw (.parse error)) := by
      change processScan (Block.scan (NumberedLine.ofSource source)) = _
      rw [processScan, fault]
    rw [whole] at loaded
    cases runs : (processAll (Block.scan (NumberedLine.ofSource source)).1).run.run document with
    | mk result middle =>
      cases result with
      | ok =>
        rw [run_bind_of_ok runs] at loaded
        cases loaded
      | error earlier =>
        rw [run_bind_of_error runs] at loaded
        cases loaded

/-- After a source that is loaded, what follows it behind a blank line is loaded as if it were
loaded next, with its errors further down. -/
theorem load_pieces {first : String} {document : Document}
    (loaded : ((load first).run.run document).1 = .ok ()) (second : String) :
    (load (first ++ "\n\n" ++ second)).run.run document =
      let (result, after) := (load second).run.run ((load first).run.run document).2
      (result.mapError (Error.lowered (NumberedLine.lineCount first + 1)), after) := by
  cases runs : (load first).run.run document with
  | mk result middle =>
    rw [runs] at loaded
    cases loaded
    rw [load_append (sound_of_load (by rw [runs])), run_bind_of_ok runs, run_adapt]
    rfl

/-- A loaded file and variable, and then a reference to it and an assignment without a value. -/
theorem load_pieces_dangling :
    let first := "<file=notes>\nA\n</file>\n> x = 1 // one"
    let second := "hello $x\n> y ="
    let document := ofCatalog .ofValues {}
    ((load first).run.run document).1 = .ok () ∧
      (load (first ++ "\n\n" ++ second)).run.run document =
        (let (result, after) := (load second).run.run ((load first).run.run document).2
        (result.mapError (Error.lowered (NumberedLine.lineCount first + 1)), after)) ∧
      ((load second).run.run ((load first).run.run document).2).1 =
        .error (.parse (.missingValue 2)) ∧
      ((load (first ++ "\n\n" ++ second)).run.run document).1 =
        .error (.parse (.missingValue 7)) := by
  intro first second document
  have loaded : ((load first).run.run document).1 = .ok () := by decide +kernel
  refine ⟨loaded, load_pieces loaded second, ?_, ?_⟩
  · decide +kernel
  · decide +kernel

end Document

end Colloquy
