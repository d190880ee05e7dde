/-!
# Remaining items

How many items of a list a search has not met yet.  The number falls with every new item that the
search meets, so a search that never meets an item twice comes to an end.
-/

namespace Colloquy

variable {Item : Type} [DecidableEq Item]

/-- The number of items that were not met. -/
def remaining (items met : List Item) : Nat := items.countP (· ∉ met)

theorem remaining_cons_le (items met : List Item) (item : Item) :
    remaining items (item :: met) ≤ remaining items met := by
  apply List.countP_mono_left
  intro other _
  simp

theorem remaining_cons_lt {items met : List Item} {item : Item} (member : item ∈ items)
    (fresh : item ∉ met) : remaining items (item :: met) < remaining items met := by
  unfold remaining
  induction items with
  | nil => simp at member
  | cons first rest ih =>
    have bound : rest.countP (· ∉ item :: met) ≤ rest.countP (· ∉ met) :=
      remaining_cons_le rest met item
    by_cases same : first = item
    · subst same
      rw [List.countP_cons_of_neg (by simp), List.countP_cons_of_pos (by simpa using fresh)]
      omega
    · have := ih (by simpa [Ne.symm same] using member)
      by_cases known : first ∈ met
      · rw [List.countP_cons_of_neg (by simp [known]),
          List.countP_cons_of_neg (by simp [known])]
        exact this
      · rw [List.countP_cons_of_pos (by simp [same, known]),
          List.countP_cons_of_pos (by simp [known])]
        omega

end Colloquy
