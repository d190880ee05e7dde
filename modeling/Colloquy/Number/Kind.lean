/-!
# Numeric kinds

A number is whole, with one of four fixed widths, or floating.  Kinds are ordered by widening, and
a whole number carries the proof that its width can hold it.
-/

namespace Colloquy

/-- The width of a whole number. -/
inductive Width where
  | byte
  | short
  | int
  | long
deriving DecidableEq, Repr

namespace Width

/-- The number of bits, sign included. -/
def bits : Width → Nat
  | byte => 8
  | short => 16
  | int => 32
  | long => 64

/-- The least number of a width. -/
def least (width : Width) : Int := -(Nat.pow 2 (width.bits - 1) : Int)

/-- The greatest number of a width. -/
def greatest (width : Width) : Int := (Nat.pow 2 (width.bits - 1) : Int) - 1

/-- The number lies between the least and the greatest one of the width. -/
def Holds (width : Width) (number : Int) : Prop :=
  width.least ≤ number ∧ number ≤ width.greatest

instance (width : Width) (number : Int) : Decidable (width.Holds number) :=
  inferInstanceAs (Decidable (_ ∧ _))

/-- The nearest number that the width holds. -/
def clamp (width : Width) (number : Int) : Int :=
  max width.least (min width.greatest number)

/-- The number of the width that is congruent modulo its number of values. -/
def wrap (width : Width) (number : Int) : Int :=
  number.bmod (Nat.pow 2 width.bits)

theorem holds_clamp (width : Width) (number : Int) : width.Holds (width.clamp number) := by
  cases width <;> simp only [Holds, clamp, least, greatest, bits, Nat.pow_eq] <;> omega

theorem holds_wrap (width : Width) (number : Int) : width.Holds (width.wrap number) := by
  cases width <;>
    simp only [Holds, wrap, least, greatest, bits, Nat.pow_eq, Int.bmod_def] <;> omega

end Width

/-- A whole number together with its width. -/
structure Whole where
  /-- The width the number is kept in. -/
  width : Width
  /-- The number itself. -/
  value : Int
  /-- The width holds the number. -/
  fits : width.Holds value
deriving DecidableEq

namespace Whole

/-- The number in the given width, if the width holds it. -/
def ofInt? (width : Width) (number : Int) : Option Whole :=
  if fits : width.Holds number then some ⟨width, number, fits⟩ else none

/-- The nearest number of the given width. -/
def saturating (width : Width) (number : Int) : Whole :=
  ⟨width, width.clamp number, width.holds_clamp number⟩

/-- The congruent number of the given width. -/
def wrapping (width : Width) (number : Int) : Whole :=
  ⟨width, width.wrap number, width.holds_wrap number⟩

theorem ofInt?_eq_some_iff {width : Width} {number : Int} {whole : Whole} :
    ofInt? width number = some whole ↔ whole.width = width ∧ whole.value = number := by
  unfold ofInt?
  split
  · rename_i fits
    constructor
    · rintro ⟨⟩
      exact ⟨rfl, rfl⟩
    · rintro ⟨rfl, rfl⟩
      rfl
  · rename_i unfit
    constructor
    · simp
    · rintro ⟨rfl, rfl⟩
      exact absurd whole.fits unfit

theorem ofInt?_eq_none_iff {width : Width} {number : Int} :
    ofInt? width number = none ↔ ¬ width.Holds number := by
  unfold ofInt?
  split <;> simp_all

@[simp]
theorem ofInt?_value (whole : Whole) : ofInt? whole.width whole.value = some whole :=
  ofInt?_eq_some_iff.2 ⟨rfl, rfl⟩

/-- The decimal text, with a leading minus sign for a negative number. -/
def text (whole : Whole) : String := toString whole.value

end Whole

/-- The representation of a number. -/
inductive NumKind where
  | whole (width : Width)
  | float
  | double
deriving DecidableEq, Repr

namespace NumKind

/-- The place of a kind in the widening order. -/
def rank : NumKind → Nat
  | whole .byte => 0
  | whole .short => 1
  | whole .int => 2
  | whole .long => 3
  | float => 4
  | double => 5

/-- A number of the first kind may stand where the second kind is expected. -/
def widensTo (source target : NumKind) : Bool := source.rank ≤ target.rank

/-- The wider of two kinds. -/
def promote (left right : NumKind) : NumKind :=
  if left.widensTo right then right else left

/-- The kind keeps whole numbers only. -/
def isWhole : NumKind → Bool
  | whole _ => true
  | _ => false

/-- The six kinds in widening order. -/
def all : List NumKind :=
  [whole .byte, whole .short, whole .int, whole .long, float, double]

/-- The word a kind is written as. -/
def keyword : NumKind → String
  | whole .byte => "byte"
  | whole .short => "short"
  | whole .int => "int"
  | whole .long => "long"
  | float => "float"
  | double => "double"

/-- The kind that a word names. -/
def ofKeyword? (word : String) : Option NumKind :=
  all.find? fun kind => kind.keyword = word

theorem rank_injective {left right : NumKind} (same : left.rank = right.rank) : left = right := by
  rcases left with (_ | _ | _ | _) | _ | _ <;> rcases right with (_ | _ | _ | _) | _ | _ <;>
    simp_all [rank]

end NumKind

end Colloquy
