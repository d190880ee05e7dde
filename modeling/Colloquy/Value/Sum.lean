import Colloquy.Error
import Colloquy.Value.Display

/-!
# Sums of values

Numbers are added as numbers if they are brought to one kind; all other operands are joined as
texts.
-/

namespace Colloquy.Value

/-- The sum of two values, or an overflow error if both are numbers and the sum does not fit. -/
def add (heap : Heap) (left right : Value) : Except RuntimeError Value :=
  let joined := str (left.text heap ++ right.text heap)
  match left.number?, right.number? with
  | some leftNumber, some rightNumber =>
    match leftNumber.add? rightNumber with
    | some (.ok sum) => .ok (number sum)
    | some (.error .overflow) => .error (.overflow leftNumber.text rightNumber.text)
    | none => .ok joined
  | _, _ => .ok joined

end Colloquy.Value
