import Colloquy.Host.Arguments
import Colloquy.Proofs.Number.Wholes

/-!
# Faults and confusions

A host function fails with a fault, which lies in the values of its arguments, or with a confusion,
which lies in their types.  No message is both: they begin or end with different characters.
-/

namespace Colloquy.Host

/-- Messages of host functions about values that are of the right type but out of range. -/
inductive Fault : String → Prop
  | index {index : Int} {length : Nat} (outside : ¬(0 ≤ index ∧ index < length)) :
    Fault ("Index " ++ toString index ++ " out of bounds for length " ++ toString length)
  | slice {first last : Int} {length : Nat}
    (outside : ¬(0 ≤ first ∧ first ≤ last ∧ last ≤ length)) :
    Fault ("begin " ++ toString first ++ ", end " ++ toString last ++ ", length "
      ++ toString length)
  | count {count : Int} (negative : count < 0) : Fault ("count is negative: " ++ toString count)
  | capacity {capacity : Int} (negative : capacity < 0) :
    Fault ("Illegal Capacity: " ++ toString capacity)
  | lineCount {expected : Int} (negative : expected < 0) :
    Fault ("negative line count " ++ toString expected)
  | unreadable {text : String}
    (unread : (∃ width ∈ [Width.int, .long], Reading.signedWhole? width text.toList = none) ∨
      Reading.double? (Text.trim text.toList) = none) :
    Fault ("For input string: \"" ++ text ++ "\"")
  | overflow {left right : Int} (beyond : ¬Width.int.Holds (left + right)) :
    Fault ("integer overflow: " ++ toString left ++ " + " ++ toString right)
  | length {length : Nat} (beyond : ¬Width.int.Holds length) :
    Fault (toString length ++ " exceeds the int range")
  | wideLength {length : Nat} (beyond : ¬Width.int.Holds length) :
    Fault "out of range integral type conversion attempted"

/-- Messages of host functions about arguments that are missing or of the wrong type. -/
inductive Confusion : String → Prop
  | missing (place : Nat) : Confusion ("missing argument " ++ toString place)
  | mismatch (expected found : String) :
    Confusion ("expected " ++ expected ++ ", found " ++ found)
  | notList (className : String) : Confusion (className ++ " is not a list")
  | notBuilder (className : String) : Confusion (className ++ " is not a StringBuilder")
  | notCollection (className : String) : Confusion (className ++ " is not a collection")
  | notNumber (typeName : String) : Confusion (typeName ++ " is not a number")
  | notJoined : Confusion "expected elements to join"

theorem head_append {front : String} {c : Char} (begins : front.toList.head? = some c)
    (rest : String) : (front ++ rest).toList.head? = some c := by
  rw [String.toList_append, List.head?_append, begins, Option.some_or]

theorem last_append {final : String} {c : Char} (ends : final.toList.getLast? = some c)
    (front : String) : (front ++ final).toList.getLast? = some c := by
  rw [String.toList_append, List.getLast?_append, ends, Option.some_or]

/-- What confusions begin with, unless they end with one of `confusionEnds`. -/
def confusionStarts : List Char := ['m', 'e']

/-- What confusions end with, unless they begin with one of `confusionStarts`. -/
def confusionEnds : List Char := ['t', 'r', 'n']

theorem Confusion.bounds {message : String} (confusion : Confusion message) :
    (∃ first ∈ confusionStarts, message.toList.head? = some first) ∨
      ∃ last ∈ confusionEnds, message.toList.getLast? = some last := by
  cases confusion with
  | missing place => exact .inl ⟨'m', by decide, head_append rfl _⟩
  | mismatch expected found =>
    exact .inl ⟨'e', by decide, head_append (head_append (head_append rfl _) _) _⟩
  | notList => exact .inr ⟨'t', by decide, last_append rfl _⟩
  | notBuilder => exact .inr ⟨'r', by decide, last_append rfl _⟩
  | notCollection => exact .inr ⟨'n', by decide, last_append rfl _⟩
  | notNumber => exact .inr ⟨'r', by decide, last_append rfl _⟩
  | notJoined => exact .inl ⟨'e', by decide, rfl⟩

theorem not_mem_of_isDigit {c : Char} (digit : c.isDigit) {letters : List Char}
    (apart : letters.all (!·.isDigit)) : c ∉ letters := by
  intro member
  have other := List.all_eq_true.1 apart c member
  simp [digit] at other

theorem isDigit_of_mem_toString_nat {count : Nat} {c : Char}
    (member : c ∈ (toString count).toList) : c.isDigit := by
  have digits : (toString count).toList = Nat.toDigits 10 count := Nat.toList_repr
  rw [digits] at member
  exact Nat.isDigit_of_mem_toDigits (by decide) (by decide) member

theorem toList_toString_nat_ne_nil (count : Nat) : (toString count).toList ≠ [] := by
  have digits : (toString count).toList = Nat.toDigits 10 count := Nat.toList_repr
  rw [digits]
  exact Nat.toDigits_ne_nil

theorem head_count (count : Nat) (rest : String) :
    ∃ first ∉ confusionStarts, (toString count ++ rest).toList.head? = some first := by
  have nonempty := toList_toString_nat_ne_nil count
  have digit := isDigit_of_mem_toString_nat (List.head_mem nonempty)
  exact ⟨_, not_mem_of_isDigit digit (by decide),
    head_append (List.head?_eq_some_head nonempty) rest⟩

theorem last_count (front : String) (count : Nat) :
    ∃ last ∉ confusionEnds, (front ++ toString count).toList.getLast? = some last := by
  have nonempty := toList_toString_nat_ne_nil count
  have digit := isDigit_of_mem_toString_nat (List.getLast_mem nonempty)
  exact ⟨_, not_mem_of_isDigit digit (by decide),
    last_append (List.getLast?_eq_some_getLast nonempty) front⟩

theorem last_integer (front : String) (value : Int) :
    ∃ last ∉ confusionEnds, (front ++ toString value).toList.getLast? = some last := by
  have last := List.getLast?_eq_some_getLast (Reading.toList_toString_ne_nil value)
  have digit := Reading.isDigit_of_getLast? last
  exact ⟨_, not_mem_of_isDigit digit (by decide), last_append last front⟩

/-- Which characters a fault neither begins nor ends with. -/
theorem Fault.bounds {message : String} (fault : Fault message) :
    (∃ first ∉ confusionStarts, message.toList.head? = some first) ∧
      ∃ last ∉ confusionEnds, message.toList.getLast? = some last := by
  cases fault with
  | index =>
    exact ⟨⟨'I', by decide, head_append (head_append (head_append rfl _) _) _⟩, last_count _ _⟩
  | slice =>
    refine ⟨⟨'b', by decide, ?_⟩, last_count _ _⟩
    exact head_append (head_append (head_append (head_append (head_append rfl _) _) _) _) _
  | count => exact ⟨⟨'c', by decide, head_append rfl _⟩, last_integer _ _⟩
  | capacity => exact ⟨⟨'I', by decide, head_append rfl _⟩, last_integer _ _⟩
  | lineCount => exact ⟨⟨'n', by decide, head_append rfl _⟩, last_integer _ _⟩
  | unreadable =>
    exact ⟨⟨'F', by decide, head_append (head_append rfl _) _⟩, '"', by decide, last_append rfl _⟩
  | overflow =>
    exact ⟨⟨'i', by decide, head_append (head_append (head_append rfl _) _) _⟩, last_integer _ _⟩
  | length => exact ⟨head_count _ _, 'e', by decide, last_append rfl _⟩
  | wideLength => exact ⟨⟨'o', by decide, rfl⟩, 'd', by decide, rfl⟩

theorem Fault.not_confusion {message : String} (fault : Fault message) : ¬Confusion message := by
  intro confusion
  obtain ⟨⟨first, otherFirst, begins⟩, last, otherLast, ends⟩ := fault.bounds
  rcases confusion.bounds with ⟨c, member, head⟩ | ⟨c, member, final⟩
  · obtain rfl := Option.some.inj (begins.symm.trans head)
    exact otherFirst member
  · obtain rfl := Option.some.inj (ends.symm.trans final)
    exact otherLast member

end Colloquy.Host
