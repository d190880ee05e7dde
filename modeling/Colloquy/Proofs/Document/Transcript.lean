import Colloquy.Proofs.Document.Soundness

/-!
# Transcripts

No text of a document goes beyond its line.  So the printed form of an exchange has one line for
each of its lines of information, its lines and its checks.
-/

namespace Colloquy

variable {heap : Heap}

theorem Marker.text_eq_of_information? {mark : Marker} {text : String}
    (found : mark.information? = some text) : mark.text = text := by
  cases mark <;> cases found
  rfl

theorem Marker.text_eq_of_check? {mark : Marker} {check : OutputCheck}
    (found : mark.check? = some check) : mark.text = check.describe := by
  cases mark <;> cases found
  rfl

namespace Exchange

/-- The texts of the exchange stay within their lines, and it is printed line by line. -/
structure LineBased (exchange : Exchange) : Prop where
  lines : ∀ line ∈ exchange.lines, '\n' ∉ line.text.toList
  information : ∀ text ∈ exchange.information, '\n' ∉ text.toList
  checks : ∀ check ∈ exchange.checks, '\n' ∉ check.describe.toList
  /-- Each printed line ends with a line end, and nothing is left behind the last. -/
  printed : exchange.text.toList.splitOn '\n' = exchange.shownLines.map String.toList ++ [[]]
  /-- There is one line end for each line of information, each line and each check. -/
  ended : exchange.text.toList.count '\n' =
    exchange.information.length + exchange.lines.length + exchange.checks.length

variable {exchange : Exchange}

theorem toList_text (exchange : Exchange) :
    exchange.text.toList = (exchange.shownLines.map String.toList).flatMap (· ++ ['\n']) := by
  simp [text, String.toList_join, List.flatMap_map]

theorem length_shownLines (exchange : Exchange) : exchange.shownLines.length =
    exchange.information.length + exchange.lines.length + exchange.checks.length := by
  simp [shownLines, Nat.add_assoc]

theorem spells_information {alphabet : Alphabet} (spelled : exchange.Spelled alphabet)
    {text : String} (member : text ∈ exchange.information) : alphabet.Spells text.toList := by
  obtain ⟨mark, known, found⟩ := List.mem_filterMap.1 member
  rw [← Marker.text_eq_of_information? found]
  exact spelled.markers mark known

theorem spells_describe {alphabet : Alphabet} (spelled : exchange.Spelled alphabet)
    {check : OutputCheck} (member : check ∈ exchange.checks) :
    alphabet.Spells check.describe.toList := by
  obtain ⟨mark, known, found⟩ := List.mem_filterMap.1 member
  rw [← Marker.text_eq_of_check? found]
  exact spelled.markers mark known

/-- The marks in front of printed lines are spelled in every alphabet. -/
theorem spells_shownLines {alphabet : Alphabet} (spelled : exchange.Spelled alphabet) :
    ∀ line ∈ exchange.shownLines, alphabet.Spells line.toList := by
  have marked {mark text : String} (plain : mark.toList.all Text.isPrintable)
      (textSpelled : alphabet.Spells text.toList) : alphabet.Spells (mark ++ text).toList := by
    rw [String.toList_append]
    exact Alphabet.spells_append_iff.2 ⟨Alphabet.spells_of_isPrintable plain, textSpelled⟩
  rw [shownLines]
  refine List.forall_mem_append.2 ⟨List.forall_mem_append.2 ⟨?_, ?_⟩, ?_⟩
  · refine List.forall_mem_map.2 fun text member => ?_
    exact marked (by decide) (spells_information spelled member)
  · refine List.forall_mem_map.2 fun line member => ?_
    have textSpelled := spelled.lines line member
    cases line with
    | output => exact textSpelled
    | input => exact marked (by decide) textSpelled
  · refine List.forall_mem_map.2 fun check member => ?_
    exact marked (by decide) (spells_describe spelled member)

theorem Spelled.not_mem_shownLines (spelled : exchange.Spelled .inLine) :
    ∀ line ∈ exchange.shownLines.map String.toList, '\n' ∉ line :=
  List.forall_mem_map.2 fun line member =>
    Alphabet.spells_inLine_iff.1 (spells_shownLines spelled line member)

theorem Spelled.lineBased (spelled : exchange.Spelled .inLine) : exchange.LineBased := by
  have printed : exchange.text.toList.splitOn '\n' =
      exchange.shownLines.map String.toList ++ [[]] := by
    rw [toList_text, Text.splitOn_flatMap spelled.not_mem_shownLines]
  refine ⟨fun line member => ?_, fun text member => ?_, fun check member => ?_, printed, ?_⟩
  · exact Alphabet.spells_inLine_iff.1 (spelled.lines line member)
  · exact Alphabet.spells_inLine_iff.1 (spells_information spelled member)
  · exact Alphabet.spells_inLine_iff.1 (spells_describe spelled member)
  · have counted := Text.length_splitOn '\n' exchange.text.toList
    rw [printed, List.length_append, List.length_map, length_shownLines] at counted
    exact (Nat.succ.inj counted).symm

end Exchange

/-- The printed forms of what an object holds. -/
def ObjectState.texts (heap : Heap) : ObjectState → List String
  | .list items => items.map (·.text heap)
  | .builder content => [content]
  | .plain _ => []
  | .text shown => [shown]

theorem ObjectState.Sound.spells_texts {alphabet : Alphabet} {state : ObjectState}
    (sound : state.Sound alphabet heap) (heapSound : heap.Sound alphabet) :
    ∀ text ∈ state.texts heap, alphabet.Spells text.toList := by
  cases state with
  | list items =>
    refine List.forall_mem_map.2 fun item member => ?_
    exact (sound item member).spells_text heapSound
  | builder content => exact List.forall_mem_singleton.2 sound
  | plain => exact List.forall_mem_nil _
  | text shown => exact List.forall_mem_singleton.2 sound

namespace Document

/-- No text of the document goes beyond its line, and the document is printed line by line. -/
structure LineBased (document : Document) : Prop where
  bound : ∀ name value, document.value? name = some value →
    '\n' ∉ (value.text document.session.heap).toList
  stored : ∀ state ∈ document.session.heap.states, ∀ text ∈ state.texts document.session.heap,
    '\n' ∉ text.toList
  files : ∀ name lines, document.file? name = some lines → ∀ line ∈ lines, '\n' ∉ line.toList
  exchanges : ∀ exchange ∈ document.exchanges, exchange.LineBased
  /-- The printed lines of the exchanges are those of the transcript. -/
  transcript : document.transcript.toList.splitOn '\n' =
    (document.exchanges.flatMap Exchange.shownLines).map String.toList ++ [[]]

variable {catalog : Catalog} {packages : List String} {document : Document}

theorem toList_transcript (document : Document) : document.transcript.toList =
    ((document.exchanges.flatMap Exchange.shownLines).map String.toList).flatMap
      (· ++ ['\n']) := by
  simp [transcript, String.toList_join, List.flatMap_map, List.map_flatMap, List.flatMap_assoc,
    Exchange.toList_text]

theorem Sound.lineBased (sound : document.Sound catalog packages .inLine) : document.LineBased where
  bound name value known := Alphabet.spells_inLine_iff.1
    ((sound.session.bound name value known).spells_text sound.session.heap)
  stored state known text member := Alphabet.spells_inLine_iff.1
    ((sound.session.heap state known).spells_texts sound.session.heap text member)
  files name lines known line member := Alphabet.spells_inLine_iff.1
    (sound.files name lines known line member)
  exchanges exchange member := (sound.exchanges exchange member).lineBased
  transcript := by
    have within : ∀ line ∈ (document.exchanges.flatMap Exchange.shownLines).map String.toList,
        '\n' ∉ line := by
      rw [List.map_flatMap]
      exact List.forall_mem_flatMap.2 fun exchange member =>
        (sound.exchanges exchange member).not_mem_shownLines
    rw [toList_transcript, Text.splitOn_flatMap within]

/-- Over the host library, whatever documents are loaded and whether the loads succeed or not, no
value of a variable or of an object is printed with a line end, no line of a file or of an exchange
and no annotation has one, and every exchange is printed on as many lines as it has lines and
annotations. -/
theorem lineBased_loadAll : ∃ catalog, Host.catalog = .ok catalog ∧
    ∀ (settings : Settings) (order : TableOrder) (sources : List String),
      ((ofCatalog catalog settings order).loadAll sources).LineBased := by
  obtain ⟨catalog, built⟩ := Host.catalog_built
  refine ⟨catalog, built, fun settings order sources => ?_⟩
  have guarded := guarded_catalog built
  have sound : ((ofCatalog catalog settings order).loadAll sources).Sound catalog
      settings.packages .inLine :=
    (sound_ofCatalog catalog settings order .inLine).loadAll guarded fun source _ =>
      NumberedLine.spelled_ofSource source
  exact sound.lineBased

end Document

end Colloquy
