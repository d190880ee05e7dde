import Colloquy.Proofs.Document.Files
import Colloquy.Proofs.Document.History
import Colloquy.Proofs.Document.Substitution
import Colloquy.Proofs.Session
import Colloquy.Proofs.Text.Cut

/-!
# Sound documents

Where the lines of sources are spelled in an alphabet, so are the files and the exchanges of the
document that they are loaded into, and its session stays sound, whether the loads succeed or not.
-/

namespace Colloquy

variable {alphabet : Alphabet} {heap : Heap}

namespace NumberedLine

/-- The lines are spelled in the alphabet. -/
def Spelled (alphabet : Alphabet) (lines : List NumberedLine) : Prop :=
  ∀ line ∈ lines, alphabet.Spells line.text.toList

theorem subset_ofTexts {number : Nat} {texts : List (List Char)} :
    ∀ line ∈ ofTexts number texts, ∃ text ∈ texts, line.text.toList ⊆ text := by
  induction texts generalizing number with
  | nil => exact List.forall_mem_nil _
  | cons raw rest ih =>
    have later {start : Nat} : ∀ line ∈ ofTexts start rest,
        ∃ text ∈ raw :: rest, line.text.toList ⊆ text := fun line member =>
      let ⟨text, known, within⟩ := ih line member
      ⟨text, .tail _ known, within⟩
    have unreturned : Text.withoutReturn raw ⊆ raw := by
      unfold Text.withoutReturn
      split
      · exact List.dropLast_subset _
      · exact List.Subset.refl _
    simp only [ofTexts]
    split
    · exact later
    · refine List.forall_mem_cons.2 ⟨⟨raw, .head _, ?_⟩, later⟩
      rw [String.toList_ofList]
      exact List.Subset.trans (prefix_withoutComment _).subset unreturned

/-- The lines of a source have no line end in them. -/
theorem spelled_ofSource (source : String) : Spelled .inLine (ofSource source) := by
  intro line member
  obtain ⟨text, known, within⟩ := subset_ofTexts line member
  exact (Alphabet.spells_inLine_iff.2 (Text.not_mem_of_mem_splitOn known)).of_subset within

end NumberedLine

namespace Block

open NumberedLine (Spelled)

/-- The lines that are processed with a block. -/
def content : Block → List NumberedLine
  | tagged _ _ body _ => body
  | code line => [line]
  | interaction lines => lines
  | blank => []

theorem spelled_fragment (number : Nat) {text : List Char} (spelled : alphabet.Spells text) :
    Spelled alphabet (fragment number text) := by
  unfold fragment
  split
  · exact List.forall_mem_nil _
  · exact List.forall_mem_singleton.2 (by rwa [String.toList_ofList])

theorem subset_of_cutAtClosing? {closing text before after : List Char}
    (cut : cutAtClosing? closing text = some (before, after)) : before ⊆ text ∧ after ⊆ text := by
  obtain ⟨_, -, same⟩ := Option.map_eq_some_iff.1 cut
  cases same
  exact ⟨List.take_subset _ _, List.drop_subset _ _⟩

/-- The line with the closing tag is cut into the end of the body and the start of the rest. -/
theorem spelled_cut {closing before after : List Char} {current : NumberedLine}
    (cut : cutAtClosing? closing current.text.toList = some (before, after))
    (spelled : alphabet.Spells current.text.toList) :
    Spelled alphabet (fragment current.number before) ∧
      Spelled alphabet (fragment current.number after) :=
  let ⟨front, behind⟩ := subset_of_cutAtClosing? cut
  ⟨spelled_fragment _ (spelled.of_subset front), spelled_fragment _ (spelled.of_subset behind)⟩

theorem spelled_body? {closing : List Char} {onTagLine : Bool} {current : NumberedLine}
    {lines body rest : List NumberedLine}
    (closed : body? closing onTagLine current lines = some (body, rest))
    (spelled : Spelled alphabet (current :: lines)) :
    Spelled alphabet body ∧ Spelled alphabet rest := by
  induction lines generalizing onTagLine current body rest with
  | nil =>
    unfold body? at closed
    split at closed
    · rename_i before after cut
      cases closed
      obtain ⟨bodySpelled, restSpelled⟩ := spelled_cut cut (spelled current (.head _))
      exact ⟨bodySpelled, List.forall_mem_append.2 ⟨restSpelled, List.forall_mem_nil _⟩⟩
    · cases closed
  | cons next lines ih =>
    obtain ⟨here, others⟩ := List.forall_mem_cons.1 spelled
    unfold body? at closed
    split at closed
    · rename_i before after cut
      cases closed
      obtain ⟨bodySpelled, restSpelled⟩ := spelled_cut cut here
      exact ⟨bodySpelled, List.forall_mem_append.2 ⟨restSpelled, others⟩⟩
    · obtain ⟨⟨inner, left⟩, later, same⟩ := Option.map_eq_some_iff.1 closed
      cases same
      obtain ⟨innerSpelled, leftSpelled⟩ := ih later others
      refine ⟨?_, leftSpelled⟩
      split
      · exact innerSpelled
      · exact List.forall_mem_cons.2 ⟨here, innerSpelled⟩

theorem subset_of_openingTag? {text rest : List Char} {tag : Tag}
    (opened : openingTag? text = some (tag, rest)) : rest ⊆ text := by
  obtain ⟨-, rfl⟩ := openingTag?_eq_some_iff.1 opened
  exact List.subset_append_right _ _

/-- The content of a block and what it leaves are spelled as the lines are. -/
theorem spelled_next {first : NumberedLine} {lines rest : List NumberedLine} {block : Block}
    (found : next first lines = .ok (block, rest)) (spelled : Spelled alphabet (first :: lines)) :
    Spelled alphabet block.content ∧ Spelled alphabet rest := by
  obtain ⟨here, others⟩ := List.forall_mem_cons.1 spelled
  unfold next at found
  split at found
  · cases found
    exact ⟨List.forall_mem_nil _, fun line member =>
      others line ((List.dropWhile_sublist _).subset member)⟩
  · split at found
    · rename_i tag opened
      split at found
      · rename_i closed
        cases found
        refine spelled_body? closed (List.forall_mem_cons.2 ⟨?_, others⟩)
        rw [String.toList_ofList]
        exact here.of_subset (subset_of_openingTag? opened)
      · cases found
    · split at found
      · rename_i code marked
        cases found
        refine ⟨List.forall_mem_singleton.2 ?_, others⟩
        rw [String.toList_ofList]
        refine here.of_subset ?_
        rw [marked]
        exact List.subset_cons_self _ _
      · cases found
        refine ⟨List.forall_mem_cons.2 ⟨here, fun line member => ?_⟩, fun line member => ?_⟩
        · exact others line ((List.takeWhile_sublist _).subset member)
        · exact others line ((List.dropWhile_sublist _).subset member)

theorem spelled_scan {lines : List NumberedLine} (spelled : Spelled alphabet lines) :
    ∀ block ∈ (scan lines).1, Spelled alphabet block.content := by
  induction lines using scan.induct with
  | case1 => simp
  | case2 first lines block rest found blocks fault scanned ih =>
    obtain ⟨content, left⟩ := spelled_next found spelled
    rw [scan_of_ok found]
    exact List.forall_mem_cons.2 ⟨content, ih left⟩
  | case3 first lines fault failed =>
    rw [scan_of_error failed]
    exact List.forall_mem_nil _

end Block

namespace Exchange

/-- The texts of the exchange are spelled in the alphabet. -/
structure Spelled (alphabet : Alphabet) (exchange : Exchange) : Prop where
  lines : ∀ line ∈ exchange.lines, alphabet.Spells line.text.toList
  markers : ∀ mark ∈ exchange.markers, alphabet.Spells mark.text.toList

variable {lookup : String → Option Value} (heapSound : heap.Sound alphabet)
  (bound : ∀ name, ∀ value ∈ lookup name, value.Sound alphabet heap)

/-- A text with its references replaced is spelled in the alphabet, and so are its markers. -/
def Substituted.Spelled (alphabet : Alphabet) (substituted : Substituted) : Prop :=
  alphabet.Spells substituted.text ∧
    ∀ mark ∈ substituted.markers, alphabet.Spells mark.text.toList

include heapSound bound

theorem spelled_shown {name : Lexer.Identifier} (spelled : alphabet.Spells name.chars) :
    alphabet.Spells ((Piece.reference name).shown heap lookup) := by
  rw [Piece.shown]
  split
  · exact Alphabet.spells_nil
  · rename_i value _ known
    exact (bound _ value known).spells_text heapSound
  · have sign : alphabet.has '$' := alphabet.printable _ (by decide)
    exact Alphabet.spells_cons_iff.2 ⟨sign, spelled⟩

omit heapSound in
theorem spelled_marker {name : Lexer.Identifier} {mark : Marker}
    (refers : (Piece.reference name).marker? lookup = some mark) :
    alphabet.Spells mark.text.toList := by
  rw [Piece.marker?] at refers
  split at refers
  · rename_i known
    cases refers
    exact Value.spells_of_marker (bound _ _ known)
  · cases refers

theorem spelled_pieces {text : List Char} {pieces : List Piece} (parts : Decomposes text pieces)
    (spelled : alphabet.Spells text) :
    alphabet.Spells (pieces.flatMap (Piece.shown heap lookup)) ∧
      ∀ mark ∈ pieces.filterMap (Piece.marker? lookup), alphabet.Spells mark.text.toList := by
  induction parts with
  | nil => exact ⟨Alphabet.spells_nil, List.forall_mem_nil _⟩
  | reference _ _ ih =>
    obtain ⟨-, inner⟩ := Alphabet.spells_cons_iff.1 spelled
    obtain ⟨name, rest⟩ := Alphabet.spells_append_iff.1 inner
    obtain ⟨text, markers⟩ := ih rest
    refine ⟨Alphabet.spells_append_iff.2 ⟨spelled_shown heapSound bound name, text⟩, ?_⟩
    intro mark member
    obtain ⟨piece, within, refers⟩ := List.mem_filterMap.1 member
    rcases List.mem_cons.1 within with rfl | later
    · exact spelled_marker bound refers
    · exact markers mark (List.mem_filterMap.2 ⟨piece, later, refers⟩)
  | other _ _ ih =>
    obtain ⟨first, others⟩ := Alphabet.spells_cons_iff.1 spelled
    obtain ⟨text, markers⟩ := ih others
    exact ⟨Alphabet.spells_cons_iff.2 ⟨first, text⟩, markers⟩

theorem spelled_substitute {text : List Char} (spelled : alphabet.Spells text) :
    (substitute heap lookup text).Spelled alphabet := by
  obtain ⟨pieces, parts, same⟩ := exists_decomposes heap lookup text
  rw [same]
  exact spelled_pieces heapSound bound parts spelled

omit heapSound bound in
theorem splitInput_subset (text : List Char) : (splitInput text).1 ⊆ text := by
  unfold splitInput
  split
  · exact fun c member => .tail _ (.tail _ (.tail _ member))
  · exact fun c member => .tail _ (.tail _ member)
  · exact List.Subset.refl _

theorem spelled_ofLine {line : NumberedLine} (spelled : alphabet.Spells line.text.toList) :
    (∀ part ∈ (ofLine heap lookup line).1, alphabet.Spells part.text.toList) ∧
      ∀ mark ∈ (ofLine heap lookup line).2, alphabet.Spells mark.text.toList := by
  obtain ⟨text, markers⟩ :=
    spelled_substitute heapSound bound (spelled.of_subset (splitInput_subset _))
  simp only [ofLine]
  split
  · exact ⟨List.forall_mem_nil _, markers⟩
  · refine ⟨List.forall_mem_singleton.2 ?_, markers⟩
    split
    · rwa [ExchangeLine.text, String.toList_ofList]
    · rwa [ExchangeLine.text, String.toList_ofList]

theorem spelled_ofLines {lines : List NumberedLine}
    (spelled : NumberedLine.Spelled alphabet lines) :
    (ofLines heap lookup lines).Spelled alphabet where
  lines part member := by
    obtain ⟨_, built, within⟩ := List.mem_flatMap.1 member
    obtain ⟨line, known, rfl⟩ := List.mem_map.1 built
    exact (spelled_ofLine heapSound bound (spelled line known)).1 part within
  markers mark member := by
    obtain ⟨_, built, within⟩ := List.mem_flatMap.1 member
    obtain ⟨line, known, rfl⟩ := List.mem_map.1 built
    exact (spelled_ofLine heapSound bound (spelled line known)).2 mark within

end Exchange

namespace Document

open NumberedLine (Spelled)

variable {catalog : Catalog} {packages : List String} {document : Document}

/-- The session is sound, and the files and the exchanges are spelled in the alphabet. -/
structure Sound (catalog : Catalog) (packages : List String) (alphabet : Alphabet)
    (document : Document) : Prop where
  session : document.session.Sound catalog packages alphabet
  files : ∀ name, ∀ lines ∈ document.files.get? name, ∀ line ∈ lines, alphabet.Spells line.toList
  exchanges : ∀ exchange ∈ document.exchanges, exchange.Spelled alphabet

/-- The documents over a catalog. -/
def world (catalog : Catalog) (packages : List String) (alphabet : Alphabet) : World Document where
  heap document := document.session.heap
  Sound := Sound catalog packages alphabet

theorem ensures_storeFile (args : Option String) {body : List NumberedLine}
    (spelled : Spelled alphabet body) (line : Nat) :
    (world catalog packages alphabet).Ensures (storeFile args body line) document
      (fun _ _ => True) fun _ => True := by
  unfold storeFile
  dsimp only
  refine World.ensures_unless (fun _ => trivial) fun _ => ?_
  refine World.ensures_modify (fun sound => ⟨⟨sound.session, ?_, sound.exchanges⟩, .refl _⟩) trivial
  refine Table.forall_put sound.files fun text member => ?_
  obtain ⟨line, known, rfl⟩ := List.mem_map.1 member
  exact spelled line known

theorem Sound.addExchange (sound : document.Sound catalog packages alphabet) {exchange : Exchange}
    (spelled : exchange.Spelled alphabet) :
    (document.addExchange exchange).Sound catalog packages alphabet := by
  have empty : Exchange.Spelled alphabet {} := ⟨List.forall_mem_nil _, List.forall_mem_nil _⟩
  refine ⟨sound.session, sound.files, ?_⟩
  refine List.forall_mem_append.2 ⟨List.forall_mem_append.2 ⟨sound.exchanges, ?_⟩,
    List.forall_mem_singleton.2 spelled⟩
  split
  · exact List.forall_mem_singleton.2 empty
  · exact List.forall_mem_nil _

section Loading

variable (guarded : catalog.Guarded)

include guarded

theorem ensures_runCode {line : NumberedLine} (spelled : alphabet.Spells line.text.toList) :
    (world catalog packages alphabet).Ensures (runCode line) document (fun _ _ => True)
      fun _ => True := by
  intro sound
  have leads : (Session.world catalog packages alphabet).Leads document.session
      ((Evaluation.evaluate Session.scope line.text line.number).run.run document.session).2 :=
    (Evaluation.ensures_evaluate (Session.sound_scope guarded) spelled line.number
      sound.session).1
  rw [run_runCode]
  cases outcome :
      (Evaluation.evaluate Session.scope line.text line.number).run.run document.session with
  | mk result session =>
    rw [outcome] at leads
    refine ⟨⟨⟨leads.sound, sound.files, sound.exchanges⟩, leads.keeps⟩, ?_⟩
    cases result <;> trivial

theorem ensures_runLines {lines : List NumberedLine} (spelled : Spelled alphabet lines) :
    (world catalog packages alphabet).Ensures (runLines lines) document (fun _ _ => True)
      fun _ => True := by
  induction lines generalizing document with
  | nil => exact World.ensures_pure trivial
  | cons line rest ih =>
    obtain ⟨first, others⟩ := List.forall_mem_cons.1 spelled
    exact (ensures_runCode guarded first).bind fun _ _ _ _ => ih others

/-- A block with spelled content leads to a sound document. -/
theorem ensures_process {block : Block} (spelled : Spelled alphabet block.content) :
    (world catalog packages alphabet).Ensures (process block) document (fun _ _ => True)
      fun _ => True := by
  cases block with
  | tagged id args body line =>
    rw [process]
    split
    · exact ensures_storeFile args spelled line
    · split
      · exact ensures_runLines guarded spelled
      · exact World.ensures_throw trivial
  | code line => exact ensures_runCode guarded (spelled line (.head _))
  | interaction lines =>
    refine World.ensures_modify (fun sound => ⟨Sound.addExchange sound ?_, .refl _⟩) trivial
    exact Exchange.spelled_ofLines sound.session.heap sound.session.bound spelled
  | blank => exact World.ensures_pure trivial

theorem ensures_processAll {blocks : List Block}
    (spelled : ∀ block ∈ blocks, Spelled alphabet block.content) :
    (world catalog packages alphabet).Ensures (processAll blocks) document (fun _ _ => True)
      fun _ => True := by
  induction blocks generalizing document with
  | nil => exact World.ensures_pure trivial
  | cons block rest ih =>
    obtain ⟨first, others⟩ := List.forall_mem_cons.1 spelled
    exact (ensures_process guarded first).bind fun _ _ _ _ => ih others

/-- A source whose lines are spelled in the alphabet leads to a sound document. -/
theorem ensures_load {source : String} (spelled : Spelled alphabet (NumberedLine.ofSource source)) :
    (world catalog packages alphabet).Ensures (load source) document (fun _ _ => True)
      fun _ => True := by
  have blocks := Block.spelled_scan spelled
  unfold load
  refine (ensures_processAll guarded blocks).bind fun _ _ _ _ => ?_
  split
  · exact World.ensures_throw trivial
  · exact World.ensures_pure trivial

/-- After any loads, whether they succeed or not, a document is sound. -/
theorem Sound.loadAll (sound : document.Sound catalog packages alphabet) {sources : List String}
    (spelled : ∀ source ∈ sources, Spelled alphabet (NumberedLine.ofSource source)) :
    (document.loadAll sources).Sound catalog packages alphabet := by
  induction sources generalizing document with
  | nil => exact sound
  | cons source rest ih =>
    obtain ⟨first, others⟩ := List.forall_mem_cons.1 spelled
    obtain ⟨leads, -⟩ := ensures_load guarded first sound
    exact ih leads.sound others

end Loading

theorem sound_ofCatalog (catalog : Catalog) (settings : Settings) (order : TableOrder)
    (alphabet : Alphabet) :
    (ofCatalog catalog settings order).Sound catalog settings.packages alphabet where
  session :=
    { heap := Heap.sound_empty alphabet
      bound := fun _ _ known => nomatch known
      served := ⟨order, [], rfl⟩ }
  files _ _ known := nomatch known
  exchanges := List.forall_mem_nil _

end Document

end Colloquy
