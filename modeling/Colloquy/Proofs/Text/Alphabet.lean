import Colloquy.Text.Blank
import Colloquy.Text.Cut
import Colloquy.Text.LetterCase

/-!
# Alphabets

A set of characters that has the printable ASCII characters and that letter case does not lead out
of.  The characters other than the line end are one.
-/

namespace Colloquy

/-- A printable ASCII character. -/
def Text.isPrintable (c : Char) : Bool := 32 ≤ c.toNat && c.toNat < 127

open Text LetterCase in
/-- Characters among which the printable ones are, and which are closed under letter case. -/
structure Alphabet where
  /-- The character is one of them. -/
  has : Char → Prop
  /-- Printable characters belong to the alphabet. -/
  printable : ∀ c, isPrintable c → has c
  /-- Upper case stays in the alphabet. -/
  upper : ∀ c, has c → ∀ d ∈ upperOf c, has d
  /-- Lower case stays in the alphabet. -/
  lower : ∀ c, has c → ∀ d ∈ lowerOf c, has d
  /-- The final sigma belongs to the alphabet. -/
  finalSigma : has 'ς'

namespace Alphabet

variable (alphabet : Alphabet)

/-- The text has characters of the alphabet only. -/
def Spells (text : List Char) : Prop := ∀ c ∈ text, alphabet.has c

variable {alphabet} {text rest : List Char}

@[simp]
theorem spells_nil : alphabet.Spells [] := by
  simp [Spells]

@[simp]
theorem spells_cons_iff {c : Char} :
    alphabet.Spells (c :: rest) ↔ alphabet.has c ∧ alphabet.Spells rest := by
  simp [Spells]

@[simp]
theorem spells_append_iff :
    alphabet.Spells (text ++ rest) ↔ alphabet.Spells text ∧ alphabet.Spells rest := by
  simp [Spells, or_imp, forall_and]

theorem Spells.of_subset (spelled : alphabet.Spells text) (fewer : rest ⊆ text) :
    alphabet.Spells rest :=
  fun c member => spelled c (fewer member)

theorem spells_of_isPrintable (plain : text.all Text.isPrintable) : alphabet.Spells text :=
  fun c member => alphabet.printable c (List.all_eq_true.1 plain c member)

theorem spells_flatten {texts : List (List Char)} (each : ∀ text ∈ texts, alphabet.Spells text) :
    alphabet.Spells texts.flatten := by
  intro c member
  obtain ⟨text, known, within⟩ := List.mem_flatten.1 member
  exact each text known c within

/-- Joined texts are spelled if the separator and each of them is. -/
theorem spells_intercalate {separator : String} {texts : List String}
    (between : alphabet.Spells separator.toList)
    (each : ∀ text ∈ texts, alphabet.Spells text.toList) :
    alphabet.Spells (separator.intercalate texts).toList := by
  induction texts with
  | nil => simp
  | cons first rest ih =>
    have later := ih fun text member => each text (.tail _ member)
    cases rest with
    | nil => simpa using each first (.head _)
    | cons second rest =>
      rw [String.intercalate_cons_cons]
      simp only [String.toList_append, spells_append_iff]
      exact ⟨⟨each first (.head _), between⟩, later⟩

theorem spells_upperCase (spelled : alphabet.Spells text) :
    alphabet.Spells (Text.upperCase text) := by
  intro d member
  obtain ⟨c, known, within⟩ := List.mem_flatMap.1 member
  exact alphabet.upper c (spelled c known) d within

theorem spells_lowerFrom (before : List Char) (spelled : alphabet.Spells text) :
    alphabet.Spells (Text.LetterCase.lowerFrom before text) := by
  induction text generalizing before with
  | nil => exact spells_nil
  | cons c rest ih =>
    obtain ⟨first, others⟩ := spells_cons_iff.1 spelled
    rw [Text.LetterCase.lowerFrom]
    refine spells_append_iff.2 ⟨?_, ih _ others⟩
    split
    · simpa using alphabet.finalSigma
    · exact alphabet.lower c first

theorem spells_lowerCase (spelled : alphabet.Spells text) :
    alphabet.Spells (Text.lowerCase text) :=
  spells_lowerFrom [] spelled

/-- The alphabet of all characters. -/
def all : Alphabet where
  has _ := True
  printable _ _ := trivial
  upper _ _ _ _ := trivial
  lower _ _ _ _ := trivial
  finalSigma := trivial

theorem spells_all (text : List Char) : all.Spells text := fun _ _ => trivial

theorem ofNat_ne_lineEnd {point : Nat} (other : point ≠ 10) : Char.ofNat point ≠ '\n' := by
  intro same
  have value := congrArg Char.toNat same
  by_cases valid : point.isValidChar
  · rw [Char.ofNat, dif_pos valid] at value
    exact other value
  · rw [Char.ofNat, dif_neg valid] at value
    cases value

open Text.LetterCase in
/-- Tables that map no character to the line end: neither does an expansion hold its code point, nor
does the first code point of a run come down to it. -/
def avoidsLineEnd (expansions : List (Nat × List Nat)) (runs : List (Nat × Nat × Nat × Int)) :
    Bool :=
  (expansions.all fun (_, points) => points.all (· != 10)) &&
    runs.all fun (first, _, _, distance) => 10 < first + distance

open Text.LetterCase in
/-- By such tables, only the line end is mapped to the line end. -/
theorem mapped_ne_lineEnd {expansions : List (Nat × List Nat)}
    {runs : List (Nat × Nat × Nat × Int)} (avoids : avoidsLineEnd expansions runs) {c d : Char}
    (other : c ≠ '\n') (member : d ∈ mapped expansions runs c) : d ≠ '\n' := by
  obtain ⟨expanded, moved⟩ := Bool.and_eq_true_iff.1 avoids
  simp only [mapped] at member
  split at member
  · rename_i points found
    obtain ⟨before, after, table, -⟩ := List.lookup_eq_some_iff.1 found
    have entry : (c.toNat, points) ∈ expansions := by simp [table]
    have apart := List.all_eq_true.1 expanded _ entry
    obtain ⟨point, known, rfl⟩ := List.mem_map.1 member
    exact ofNat_ne_lineEnd (by simpa using List.all_eq_true.1 apart point known)
  · split at member
    · rename_i first last step distance found
      have above : (10 : Int) < first + distance := by
        simpa using List.all_eq_true.1 moved _ (List.mem_of_find?_eq_some found)
      have reached := List.find?_some found
      simp only [Bool.and_eq_true, decide_eq_true_eq] at reached
      obtain ⟨⟨start, -⟩, -⟩ := reached
      rw [List.mem_singleton.1 member]
      exact ofNat_ne_lineEnd (by omega)
    · rwa [List.mem_singleton.1 member]

/-- The characters that may stand within a line. -/
def inLine : Alphabet where
  has c := c ≠ '\n'
  printable c plain := by
    rintro rfl
    exact absurd plain (by decide)
  upper _ other _ member := mapped_ne_lineEnd (by decide +kernel) other member
  lower _ other _ member := mapped_ne_lineEnd (by decide +kernel) other member
  finalSigma := by decide

theorem spells_inLine_iff : inLine.Spells text ↔ '\n' ∉ text :=
  ⟨fun spelled member => spelled '\n' member rfl, fun absent _ member same =>
    absent (same ▸ member)⟩

end Alphabet

end Colloquy
