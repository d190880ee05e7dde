import Mathlib.Algebra.GroupWithZero.Nat
import Mathlib.Order.Lattice.Nat
import Mathlib.Order.Bounds.Defs
import Colloquy.Proofs.Catalog.Dispatch

/-!
# The search for ancestors, turn by turn

The search takes one name off its queue at each turn, and so it ends after as many turns as names
were ever put there, whatever cycles there are and whatever is undeclared.  What it lists then are
the reachable supertypes, each once and the nearest first, and so an instance member is found at the
least distance at which there is one.
-/

namespace Colloquy

namespace Hierarchy

/-- A stage of the search. -/
structure Stage where
  /-- The names that are still to be looked at. -/
  queue : List String
  /-- The names that were met. -/
  seen : List String
  /-- The names that were listed, in order. -/
  listed : List String

variable (hierarchy : Hierarchy)

/-- One turn of the search, unless the queue is empty.  A name that was met before is dropped. -/
def turn? : Stage → Option Stage
  | ⟨[], _, _⟩ => none
  | ⟨name :: queue, seen, listed⟩ =>
    if name ∈ seen then some ⟨queue, seen, listed⟩
    else some ⟨queue ++ hierarchy.supertypes name, name :: seen, listed ++ [name]⟩

/-- The stage after so many turns, if the queue lasts that long. -/
def turns : Nat → Stage → Option Stage
  | 0, stage => some stage
  | count + 1, stage => hierarchy.turn? stage >>= turns count

/-- The number of names that are put into the queue of a search, those in it included. -/
def effort (seen queue : List String) : Nat :=
  queue.length + ((hierarchy.search seen queue).map fun name =>
    (hierarchy.supertypes name).length).sum

/-- The queue is empty after one turn for each name that was ever in it, and the names that the
search gives are listed then. -/
theorem turns_effort (seen queue listed : List String) :
    ∃ met, hierarchy.turns (hierarchy.effort seen queue) ⟨queue, seen, listed⟩ =
      some ⟨[], met, listed ++ hierarchy.search seen queue⟩ := by
  induction seen, queue using search.induct hierarchy generalizing listed with
  | case1 seen => exact ⟨seen, by simp [effort, search, turns]⟩
  | case2 seen name queue known ih =>
    obtain ⟨met, ends⟩ := ih listed
    have count : hierarchy.effort seen (name :: queue) = hierarchy.effort seen queue + 1 := by
      rw [effort, search, dif_pos known, effort, List.length_cons]
      omega
    have first : hierarchy.turn? ⟨name :: queue, seen, listed⟩ = some ⟨queue, seen, listed⟩ :=
      if_pos known
    rw [search, dif_pos known, count, turns, first]
    exact ⟨met, ends⟩
  | case3 seen name queue fresh ih =>
    obtain ⟨met, ends⟩ := ih (listed ++ [name])
    have count : hierarchy.effort seen (name :: queue) =
        hierarchy.effort (name :: seen) (queue ++ hierarchy.supertypes name) + 1 := by
      rw [effort, search, dif_neg fresh, effort, List.length_cons, List.length_append,
        List.map_cons, List.sum_cons]
      omega
    have first : hierarchy.turn? ⟨name :: queue, seen, listed⟩ =
        some ⟨queue ++ hierarchy.supertypes name, name :: seen, listed ++ [name]⟩ :=
      if_neg fresh
    rw [search, dif_neg fresh, count, turns, first]
    refine ⟨met, ends.trans ?_⟩
    rw [List.append_assoc, List.singleton_append]

theorem nodup_search (seen queue : List String) : (hierarchy.search seen queue).Nodup := by
  induction seen, queue using search.induct hierarchy with
  | case1 seen =>
    rw [search]
    exact List.nodup_nil
  | case2 seen name queue known ih =>
    rw [search, dif_pos known]
    exact ih
  | case3 seen name queue fresh ih =>
    rw [search, dif_neg fresh]
    refine List.nodup_cons.2 ⟨fun found => ?_, ih⟩
    exact hierarchy.not_mem_seen_of_mem_search _ _ found (.head _)

/-- The least number of steps up, one or more, that lead from a type to another one. -/
noncomputable def distance (start name : String) : Nat :=
  sInf {steps | 0 < steps ∧ hierarchy.Climbs start steps name}

variable {hierarchy} {start name other : String}

theorem Nearer.distance_le (nearer : hierarchy.Nearer start name other)
    (reached : other ∈ hierarchy.ancestors start) :
    hierarchy.distance start name ≤ hierarchy.distance start other := by
  obtain ⟨steps, path⟩ := mem_ancestors_iff_climbs.1 reached
  have least : hierarchy.distance start other ∈
      {steps | 0 < steps ∧ hierarchy.Climbs start steps other} :=
    Nat.sInf_mem ⟨steps + 1, Nat.succ_pos steps, path⟩
  obtain ⟨positive, shortest⟩ := least
  obtain ⟨fewest, same⟩ := Nat.exists_eq_succ_of_ne_zero positive.ne'
  rw [same] at shortest ⊢
  obtain ⟨fewer, within, path⟩ := nearer fewest shortest
  have reaches : fewer + 1 ∈ {steps | 0 < steps ∧ hierarchy.Climbs start steps name} :=
    ⟨Nat.succ_pos fewer, path⟩
  exact (Nat.sInf_le reaches).trans (Nat.succ_le_succ within)

theorem mem_lineage_iff :
    name ∈ hierarchy.lineage start ↔ ∃ steps, hierarchy.Climbs start steps name := by
  rw [lineage, List.mem_cons, mem_ancestors_iff_climbs]
  constructor
  · rintro (rfl | ⟨steps, path⟩)
    · exact ⟨0, .refl⟩
    · exact ⟨steps + 1, path⟩
  · rintro ⟨steps, path⟩
    cases steps with
    | zero => exact .inl path.eq_of_zero
    | succ steps => exact .inr ⟨steps, path⟩

end Hierarchy

namespace Catalog

/-- The distances from a receiver at which a type has an instance member, that of the receiver
itself being none. -/
def offerings (catalog : Catalog) (receiver name : String) (params : Signature) : Set Nat :=
  {steps | ∃ owner, catalog.hierarchy.Climbs receiver steps owner ∧
    catalog.offers name params owner}

variable {catalog : Catalog} {receiver name : String} {params : Signature}

theorem findInstance?_eq_none_iff :
    catalog.findInstance? receiver name params = none ↔
      catalog.offerings receiver name params = ∅ := by
  rw [Set.eq_empty_iff_forall_notMem]
  constructor
  · rintro nothing steps ⟨owner, path, offers⟩
    have none := List.findSome?_eq_none_iff.1 nothing owner (Hierarchy.mem_lineage_iff.2 ⟨_, path⟩)
    rw [Catalog.offers, none] at offers
    cases offers
  · refine fun nothing => List.findSome?_eq_none_iff.2 fun owner above => ?_
    obtain ⟨steps, path⟩ := Hierarchy.mem_lineage_iff.1 above
    exact Option.not_isSome_iff_eq_none.1 fun offers => nothing steps ⟨owner, path, offers⟩

theorem isLeast_offerings {member : Member}
    (found : catalog.findInstance? receiver name params = some member) :
    ∃ owner steps, catalog.findExact? .method ⟨owner, some name⟩ params = some member ∧
      catalog.hierarchy.Climbs receiver steps owner ∧
      IsLeast (catalog.offerings receiver name params) steps := by
  obtain ⟨owner, steps, exactly, path, nearest⟩ := findInstance?_nearest found
  have offers : catalog.offers name params owner := by rw [offers, exactly, Option.isSome_some]
  refine ⟨owner, steps, exactly, path, ⟨owner, path, offers⟩, ?_⟩
  rintro more ⟨other, longer, offersToo⟩
  exact nearest other more offersToo longer

/-- In any catalog, the search for the ancestors of a type ends after as many turns as its type and
its ancestors have direct supertypes.  It lists the names that one or more steps up lead to, each
once, in the order of their distances.  The instance member of a receiver is at the least distance
at which there is one, and there is none only if no type that the receiver leads to has one. -/
theorem ancestors_breadthFirst (catalog : Catalog) (start : String) :
    let hierarchy := catalog.hierarchy
    let ancestors := hierarchy.ancestors start
    (∃ met, hierarchy.turns ((hierarchy.supertypes start).length +
        (ancestors.map fun name => (hierarchy.supertypes name).length).sum)
      ⟨hierarchy.supertypes start, [], []⟩ = some ⟨[], met, ancestors⟩) ∧
    (∀ name, name ∈ ancestors ↔ Relation.TransGen hierarchy.Extends start name) ∧
    ancestors.Nodup ∧
    (ancestors.map (hierarchy.distance start)).Pairwise (· ≤ ·) ∧
    ∀ name params,
      (catalog.findInstance? start name params = none ↔
        catalog.offerings start name params = ∅) ∧
      ∀ member, catalog.findInstance? start name params = some member →
        ∃ owner steps, catalog.findExact? .method ⟨owner, some name⟩ params = some member ∧
          hierarchy.Climbs start steps owner ∧
          IsLeast (catalog.offerings start name params) steps := by
  intro hierarchy ancestors
  refine ⟨hierarchy.turns_effort [] _ [], fun name => Hierarchy.mem_ancestors_iff,
    hierarchy.nodup_search [] _, ?_, fun name params => ⟨findInstance?_eq_none_iff, ?_⟩⟩
  · refine List.pairwise_map.2 ((hierarchy.ancestors_sorted start).imp_of_mem ?_)
    exact fun _ reached nearer => nearer.distance_le reached
  · exact fun member found => isLeast_offerings found

/-- Hens come from eggs and eggs from hens, besides that hens come from an undeclared nest. -/
def brood : Hierarchy := ⟨[("Hen", ["Egg", "Nest"]), ("Egg", ["Hen"])]⟩

/-- A hen leads to itself, and has the member that eggs have. -/
theorem ancestors_hen :
    brood.ancestors "Hen" = ["Egg", "Nest", "Hen"] ∧
      (ofOwners brood ["Egg"]).findInstance? "Hen" "common" common.signature = some common ∧
      ∃ owner steps,
        (ofOwners brood ["Egg"]).findExact? .method ⟨owner, some "common"⟩ common.signature =
          some common ∧
        brood.Climbs "Hen" steps owner ∧
        IsLeast ((ofOwners brood ["Egg"]).offerings "Hen" "common" common.signature) steps := by
  have hen : brood.supertypes "Hen" = ["Egg", "Nest"] := rfl
  have egg : brood.supertypes "Egg" = ["Hen"] := rfl
  have nest : brood.supertypes "Nest" = [] := rfl
  have above : brood.ancestors "Hen" = ["Egg", "Nest", "Hen"] := by
    simp [Hierarchy.ancestors, Hierarchy.search, hen, egg, nest]
  have found : (ofOwners brood ["Egg"]).findInstance? "Hen" "common" common.signature =
      some common := by
    change ("Hen" :: brood.ancestors "Hen").findSome? _ = _
    rw [above]
    rfl
  obtain ⟨-, -, -, -, finds⟩ := ancestors_breadthFirst (ofOwners brood ["Egg"]) "Hen"
  exact ⟨above, found, (finds "common" common.signature).2 common found⟩

end Catalog

end Colloquy
