import Mathlib.Logic.Relation
import Colloquy.Catalog.Hierarchy

/-!
# Ancestors are the reachable supertypes

The search for ancestors lists exactly the types that a chain of direct supertypes leads to.  So
assignability is transitive, provided that nothing is above the root.
-/

namespace Colloquy.Hierarchy

/-- A type has another one as a direct supertype. -/
def Extends (hierarchy : Hierarchy) (name supertype : String) : Prop :=
  supertype ∈ hierarchy.supertypes name

theorem mem_search_of_mem (hierarchy : Hierarchy) (seen queue : List String) {name : String}
    (queued : name ∈ queue) : name ∈ seen ∨ name ∈ hierarchy.search seen queue := by
  induction seen, queue using search.induct hierarchy with
  | case1 seen => cases queued
  | case2 seen first queue known ih =>
    rw [search, dif_pos known]
    rcases List.mem_cons.1 queued with rfl | later
    · exact .inl known
    · exact ih later
  | case3 seen first queue fresh ih =>
    rw [search, dif_neg fresh]
    rcases List.mem_cons.1 queued with rfl | later
    · exact .inr (List.mem_cons_self ..)
    · rcases ih (List.mem_append_left _ later) with met | found
      · rcases List.mem_cons.1 met with rfl | before
        · exact .inr (List.mem_cons_self ..)
        · exact .inl before
      · exact .inr (List.mem_cons_of_mem _ found)

theorem search_closed (hierarchy : Hierarchy) (seen queue : List String) {name supertype : String}
    (found : name ∈ hierarchy.search seen queue) (direct : hierarchy.Extends name supertype) :
    supertype ∈ seen ∨ supertype ∈ hierarchy.search seen queue := by
  induction seen, queue using search.induct hierarchy with
  | case1 seen => simp [search] at found
  | case2 seen first queue known ih =>
    rw [search, dif_pos known] at found ⊢
    exact ih found
  | case3 seen first queue fresh ih =>
    rw [search, dif_neg fresh] at found ⊢
    have met : supertype ∈ first :: seen ∨
        supertype ∈ hierarchy.search (first :: seen) (queue ++ hierarchy.supertypes first) := by
      rcases List.mem_cons.1 found with rfl | later
      · exact hierarchy.mem_search_of_mem _ _ (List.mem_append_right _ direct)
      · exact ih later
    rcases met with known | reached
    · rcases List.mem_cons.1 known with rfl | before
      · exact .inr (List.mem_cons_self ..)
      · exact .inl before
    · exact .inr (List.mem_cons_of_mem _ reached)

theorem reachable_of_mem_search (hierarchy : Hierarchy) (seen queue : List String) {name : String}
    (found : name ∈ hierarchy.search seen queue) :
    ∃ start ∈ queue, Relation.ReflTransGen hierarchy.Extends start name := by
  induction seen, queue using search.induct hierarchy with
  | case1 seen => simp [search] at found
  | case2 seen first queue known ih =>
    rw [search, dif_pos known] at found
    obtain ⟨start, queued, path⟩ := ih found
    exact ⟨start, List.mem_cons_of_mem _ queued, path⟩
  | case3 seen first queue fresh ih =>
    rw [search, dif_neg fresh] at found
    rcases List.mem_cons.1 found with rfl | later
    · exact ⟨_, List.mem_cons_self .., .refl⟩
    · obtain ⟨start, queued, path⟩ := ih later
      rcases List.mem_append.1 queued with before | above
      · exact ⟨start, List.mem_cons_of_mem _ before, path⟩
      · exact ⟨first, List.mem_cons_self .., .head above path⟩

/-- The ancestors of a type are the types that one or more steps up lead to. -/
theorem mem_ancestors_iff {hierarchy : Hierarchy} {name ancestor : String} :
    ancestor ∈ hierarchy.ancestors name ↔ Relation.TransGen hierarchy.Extends name ancestor := by
  constructor
  · intro found
    obtain ⟨start, direct, path⟩ := hierarchy.reachable_of_mem_search [] _ found
    exact .head' direct path
  · intro path
    induction path with
    | single direct => simpa [ancestors] using hierarchy.mem_search_of_mem [] _ direct
    | tail _ direct ih => simpa [ancestors] using hierarchy.search_closed [] _ ih direct

theorem isAssignable_iff {hierarchy : Hierarchy} {source target : String} :
    hierarchy.isAssignable source target ↔
      source = target ∨ target = TypeName.object ∨
        Relation.TransGen hierarchy.Extends source target := by
  simp [isAssignable, mem_ancestors_iff, or_assoc]

@[simp]
theorem isAssignable_self (hierarchy : Hierarchy) (name : String) :
    hierarchy.isAssignable name name := by
  simp [isAssignable]

/-- Only where the root stands between two types may assignability fail to be transitive. -/
theorem isAssignable_trans_of_ne {hierarchy : Hierarchy} {source middle target : String}
    (inner : middle ≠ TypeName.object) (lower : hierarchy.isAssignable source middle)
    (upper : hierarchy.isAssignable middle target) : hierarchy.isAssignable source target := by
  rw [isAssignable_iff] at lower upper ⊢
  rcases upper with rfl | root | above
  · exact lower
  · exact .inr (.inl root)
  · rcases lower with rfl | root | below
    · exact .inr (.inr above)
    · exact absurd root inner
    · exact .inr (.inr (below.trans above))

/-- Nothing is above the root. -/
def Rooted (hierarchy : Hierarchy) : Prop := hierarchy.supertypes TypeName.object = []

theorem Rooted.not_above {hierarchy : Hierarchy} (rooted : hierarchy.Rooted) {target : String}
    (path : Relation.TransGen hierarchy.Extends TypeName.object target) : False := by
  obtain ⟨next, direct, -⟩ := Relation.TransGen.head'_iff.1 path
  rw [Extends, rooted] at direct
  cases direct

theorem Rooted.isAssignable_trans {hierarchy : Hierarchy} (rooted : hierarchy.Rooted)
    {source middle target : String} (lower : hierarchy.isAssignable source middle)
    (upper : hierarchy.isAssignable middle target) : hierarchy.isAssignable source target := by
  by_cases root : middle = TypeName.object
  · subst root
    rcases isAssignable_iff.1 upper with rfl | top | above
    · exact lower
    · exact isAssignable_iff.2 (.inr (.inl top))
    · exact (rooted.not_above above).elim
  · exact isAssignable_trans_of_ne root lower upper

end Colloquy.Hierarchy
