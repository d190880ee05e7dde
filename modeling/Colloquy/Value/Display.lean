import Colloquy.Remaining
import Colloquy.Value.Heap

/-!
# Printed forms

The text of a value in a heap.  Lists may contain themselves: an object that is being printed
already is shown as `(this Collection)` where it occurs again.
-/

namespace Colloquy

/-- The texts of items between brackets, separated by commas. -/
def bracketed (items : List String) : String :=
  "[" ++ ", ".intercalate items ++ "]"

namespace Value

/-- The number of objects that are not on a path. -/
def offPath (heap : Heap) (path : List Nat) : Nat :=
  remaining (List.range heap.states.length) path

theorem offPath_cons_lt {heap : Heap} {path : List Nat} {reference : ObjectRef}
    {state : ObjectState} (found : heap.state? reference = some state)
    (fresh : reference.id ∉ path) : offPath heap (reference.id :: path) < offPath heap path :=
  remaining_cons_lt (List.mem_range.2 (List.getElem?_eq_some_iff.1 found).1) fresh

mutual

/-- The text of a value while the objects on a path are being printed. -/
def textOn (heap : Heap) (path : List Nat) : Value → String
  | null => "null"
  | bool truth => if truth then "true" else "false"
  | char character => String.singleton character
  | number num => num.text
  | str text => text
  | array items => bracketed (itemTextsOn heap path items)
  | object reference =>
    if _onPath : reference.id ∈ path then "(this Collection)"
    else match _found : heap.state? reference with
      | some (.list items) => bracketed (itemTextsOn heap (reference.id :: path) items)
      | some (.builder text) => text
      | some (.plain ordinal) =>
        TypeName.object ++ "@" ++ String.ofList (Nat.toDigits 16 ordinal)
      | some (.text shown) => shown
      | none => reference.className
  | marker mark => mark.text
termination_by value => (offPath heap path, sizeOf value)
decreasing_by
  · exact Prod.Lex.right _ (by simp +arith)
  · exact Prod.Lex.left _ _ (offPath_cons_lt _found _onPath)

/-- The texts of items while the objects on a path are being printed. -/
def itemTextsOn (heap : Heap) (path : List Nat) : List Value → List String
  | [] => []
  | item :: rest => textOn heap path item :: itemTextsOn heap path rest
termination_by items => (offPath heap path, sizeOf items)
decreasing_by
  · exact Prod.Lex.right _ (by simp +arith)
  · exact Prod.Lex.right _ (by simp +arith)

end

/-- The printed form of a value. -/
def text (heap : Heap) (value : Value) : String := value.textOn heap []

end Value

end Colloquy
