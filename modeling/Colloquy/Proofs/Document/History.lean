import Colloquy.Proofs.Document.Loading

/-!
# Histories of documents

The exchanges of a document are those of the interactions that were processed, in order, whether
the loads succeeded or not.  Only an empty exchange may stand before them, and it does so where the
first of them begins with input.
-/

namespace Colloquy

namespace Exchange

/-- A line that is left out has a marker. -/
theorem ofLine_ne_nil (heap : Heap) (lookup : String → Option Value) (line : NumberedLine) :
    (ofLine heap lookup line).1 ≠ [] ∨ (ofLine heap lookup line).2 ≠ [] := by
  simp only [ofLine]
  split
  · rename_i marked
    rw [Bool.and_eq_true, Bool.not_eq_true', List.isEmpty_eq_false_iff] at marked
    exact .inr marked.1
  · exact .inl (List.cons_ne_nil _ _)

/-- The exchange of an interaction has a line or a marker. -/
theorem not_isTrivial_ofLines (heap : Heap) (lookup : String → Option Value)
    {lines : List NumberedLine} (nonempty : lines ≠ []) :
    (ofLines heap lookup lines).isTrivial = false := by
  obtain ⟨first, rest, rfl⟩ := List.exists_cons_of_ne_nil nonempty
  have part := ofLine_ne_nil heap lookup first
  simp only [isTrivial, ofLines, List.map_cons, List.flatMap_cons, Bool.and_eq_false_iff,
    List.isEmpty_eq_false_iff]
  exact part.imp (List.append_ne_nil_of_left_ne_nil · _) (List.append_ne_nil_of_left_ne_nil · _)

/-- Exchanges with an empty one before them if they begin with input. -/
def led (exchanges : List Exchange) : List Exchange :=
  if exchanges.head?.any carriesInput then {} :: exchanges else exchanges

theorem led_eq_nil_iff {exchanges : List Exchange} : led exchanges = [] ↔ exchanges = [] := by
  cases exchanges with
  | nil => rfl
  | cons first rest =>
    rw [led]
    split <;> simp

/-- The first exchange is never input. -/
theorem head_led (exchanges : List Exchange) : (led exchanges).head?.any carriesInput = false := by
  rw [led]
  split
  · rfl
  · simp_all

/-- Only the leading exchange is empty, and input follows it. -/
theorem eq_zero_of_led_isTrivial {exchanges : List Exchange}
    (solid : ∀ exchange ∈ exchanges, exchange.isTrivial = false) {index : Nat}
    {exchange : Exchange} (found : (led exchanges)[index]? = some exchange)
    (trivial : exchange.isTrivial) :
    index = 0 ∧ ((led exchanges)[1]?).any carriesInput := by
  have absent : exchange ∉ exchanges := fun member => by simp [solid exchange member] at trivial
  rw [led] at found ⊢
  split at found
  · rename_i input
    cases index with
    | zero =>
      refine ⟨rfl, ?_⟩
      rwa [if_pos input, List.getElem?_cons_succ, ← List.head?_eq_getElem?]
    | succ index =>
      rw [List.getElem?_cons_succ] at found
      exact absurd (List.mem_of_getElem? found) absent
  · exact absurd (List.mem_of_getElem? found) absent

end Exchange

namespace Block

/-- Scanned interactions have lines. -/
theorem ne_nil_of_mem_scan {lines taken : List NumberedLine}
    (member : .interaction taken ∈ (scan lines).1) : taken ≠ [] := by
  induction lines using scan.induct with
  | case1 => simp at member
  | case2 first lines block rest found blocks fault scanned ih =>
    rw [scan_of_ok found] at member
    cases member with
    | head =>
      obtain ⟨plain, -⟩ := next_interaction found
      rw [next_of_isPlain plain] at found
      cases found
      exact List.cons_ne_nil _ _
    | tail _ later => exact ih later
  | case3 first lines fault failed =>
    rw [scan_of_error failed] at member
    cases member

end Block

namespace Document

open Reducer (run_bind_of_ok run_bind_of_error)

/-- The document after loads of sources, each whether it succeeds or not. -/
def loadAll (document : Document) (sources : List String) : Document :=
  sources.foldl (fun document source => ((load source).run.run document).2) document

/-- The blocks that are processed, each with the document that it finds: all of them up to the first
that fails. -/
def turns (document : Document) : List Block → List (Document × Block)
  | [] => []
  | block :: rest =>
    (document, block) :: match (process block).run.run document with
      | (.ok _, after) => turns after rest
      | (.error _, _) => []

/-- The blocks that loads of sources process, each with the document that it finds. -/
def history (document : Document) : List String → List (Document × Block)
  | [] => []
  | source :: rest =>
    turns document (Block.scan (NumberedLine.ofSource source)).1
      ++ history ((load source).run.run document).2 rest

/-- The exchange that an interaction becomes in a document. -/
def exchange? : Document × Block → Option Exchange
  | (document, .interaction lines) =>
    some (.ofLines document.session.heap document.value? lines)
  | _ => none

theorem mem_of_mem_turns {document found : Document} {block : Block} {blocks : List Block}
    (member : (found, block) ∈ turns document blocks) : block ∈ blocks := by
  induction blocks generalizing document with
  | nil => cases member
  | cons first rest ih =>
    rw [turns] at member
    cases member with
    | head => exact .head _
    | tail _ later =>
      split at later
      · exact .tail _ (ih later)
      · cases later

/-- Exchanges of processed interactions have a line or a marker. -/
theorem not_isTrivial_of_history {document : Document} {sources : List String} {exchange : Exchange}
    (member : exchange ∈ (document.history sources).filterMap exchange?) :
    exchange.isTrivial = false := by
  obtain ⟨⟨found, block⟩, turn, built⟩ := List.mem_filterMap.1 member
  induction sources generalizing document with
  | nil => cases turn
  | cons source rest ih =>
    rcases List.mem_append.1 turn with here | later
    · have scanned := mem_of_mem_turns here
      cases block with
      | interaction lines =>
        cases built
        exact Exchange.not_isTrivial_ofLines _ _ (Block.ne_nil_of_mem_scan scanned)
      | tagged | code | blank => cases built
    · exact ih (List.mem_filterMap.2 ⟨_, later, built⟩) later

theorem exchanges_runCode (line : NumberedLine) (document : Document) :
    ((runCode line).run.run document).2.exchanges = document.exchanges := by
  rw [run_runCode]
  rfl

theorem exchanges_runLines (lines : List NumberedLine) (document : Document) :
    ((runLines lines).run.run document).2.exchanges = document.exchanges := by
  induction lines generalizing document with
  | nil => rfl
  | cons line rest ih =>
    have first := exchanges_runCode line document
    rw [runLines]
    cases runs : (runCode line).run.run document with
    | mk result after =>
      rw [runs] at first
      cases result with
      | ok => rw [run_bind_of_ok runs, ih, first]
      | error => rw [run_bind_of_error runs, first]

theorem exchanges_storeFile (args : Option String) (body : List NumberedLine) (line : Nat)
    (document : Document) :
    ((storeFile args body line).run.run document).2.exchanges = document.exchanges := by
  unfold storeFile
  dsimp only
  split <;> rfl

theorem exchanges_addExchange {document : Document} {built : List Exchange}
    (known : document.exchanges = Exchange.led built) (exchange : Exchange) :
    (document.addExchange exchange).exchanges = Exchange.led (built ++ [exchange]) := by
  have whole : (document.addExchange exchange).exchanges = document.exchanges ++
      (if document.exchanges.isEmpty && exchange.carriesInput then [({} : Exchange)] else []) ++
        [exchange] :=
    rfl
  cases built with
  | nil =>
    rw [whole, known]
    by_cases input : exchange.carriesInput <;> simp [Exchange.led, input]
  | cons first rest =>
    have opened : document.exchanges ≠ [] := by simp [known, Exchange.led_eq_nil_iff]
    rw [whole, if_neg (by simp [opened]), List.append_nil, known]
    by_cases input : first.carriesInput <;> simp [Exchange.led, input]

/-- A block adds its exchange to those that were built before. -/
theorem exchanges_process {document : Document} {built : List Exchange}
    (known : document.exchanges = Exchange.led built) (block : Block) :
    ((process block).run.run document).2.exchanges =
      Exchange.led (built ++ (exchange? (document, block)).toList) := by
  cases block with
  | tagged id args body line =>
    change _ = Exchange.led (built ++ [])
    rw [List.append_nil, ← known, process]
    split
    · exact exchanges_storeFile args body line document
    · split
      · exact exchanges_runLines body document
      · rfl
  | code line =>
    change _ = Exchange.led (built ++ [])
    rw [List.append_nil, ← known]
    exact exchanges_runCode line document
  | interaction lines => exact exchanges_addExchange known _
  | blank =>
    change document.exchanges = Exchange.led (built ++ [])
    rwa [List.append_nil]

theorem exchanges_processAll {document : Document} {built : List Exchange}
    (known : document.exchanges = Exchange.led built) (blocks : List Block) :
    ((processAll blocks).run.run document).2.exchanges =
      Exchange.led (built ++ (turns document blocks).filterMap exchange?) := by
  induction blocks generalizing document built with
  | nil =>
    change document.exchanges = Exchange.led (built ++ [])
    rwa [List.append_nil]
  | cons block rest ih =>
    have first := exchanges_process known block
    have split (later : List (Document × Block)) :
        ((document, block) :: later).filterMap exchange? =
          (exchange? (document, block)).toList ++ later.filterMap exchange? := by
      cases made : exchange? (document, block) <;> simp [made]
    rw [processAll, turns, split, ← List.append_assoc]
    cases runs : (process block).run.run document with
    | mk result after =>
      rw [runs] at first
      cases result with
      | ok =>
        rw [run_bind_of_ok runs]
        exact ih first
      | error =>
        rw [run_bind_of_error runs]
        simpa using first

theorem exchanges_processScan {document : Document} {built : List Exchange}
    (known : document.exchanges = Exchange.led built)
    (scanned : List Block × Option ParseError) :
    ((processScan scanned).run.run document).2.exchanges =
      Exchange.led (built ++ (turns document scanned.1).filterMap exchange?) := by
  have blocks := exchanges_processAll known scanned.1
  rw [processScan]
  cases runs : (processAll scanned.1).run.run document with
  | mk result after =>
    rw [runs] at blocks
    cases result with
    | ok =>
      rw [run_bind_of_ok runs]
      cases scanned.2 <;> exact blocks
    | error =>
      rw [run_bind_of_error runs]
      exact blocks

theorem exchanges_history {document : Document} {built : List Exchange}
    (known : document.exchanges = Exchange.led built) (sources : List String) :
    (document.loadAll sources).exchanges =
      Exchange.led (built ++ (document.history sources).filterMap exchange?) := by
  induction sources generalizing document built with
  | nil => simpa [loadAll, history] using known
  | cons source rest ih =>
    rw [history, List.filterMap_append, ← List.append_assoc]
    exact ih (exchanges_processScan known (Block.scan (NumberedLine.ofSource source)))

/-- After any loads, the exchanges of a document are those of the interactions that were processed
so far, in order, none of which is empty, behind an empty one where they begin with input.  Hence
the first exchange is not input, and an empty one is the first and stands before input. -/
theorem exchanges_loadAll (catalog : Catalog) (settings : Settings) (order : TableOrder)
    (sources : List String) :
    let document := ofCatalog catalog settings order
    let built := (document.history sources).filterMap exchange?
    let exchanges := (document.loadAll sources).exchanges
    exchanges = Exchange.led built ∧ (∀ exchange ∈ built, exchange.isTrivial = false) ∧
      exchanges.head?.any Exchange.carriesInput = false ∧
      ∀ index exchange, exchanges[index]? = some exchange → exchange.isTrivial →
        index = 0 ∧ (exchanges[1]?).any Exchange.carriesInput := by
  intro document built exchanges
  have none : document.exchanges = Exchange.led [] := rfl
  have whole : exchanges = Exchange.led built := exchanges_history none sources
  have solid : ∀ exchange ∈ built, exchange.isTrivial = false :=
    fun _ member => not_isTrivial_of_history member
  refine ⟨whole, solid, ?_, fun index exchange found trivial => ?_⟩
  · rw [whole]
    exact Exchange.head_led built
  · rw [whole] at found ⊢
    exact Exchange.eq_zero_of_led_isTrivial solid found trivial

end Document

end Colloquy
