import Colloquy.Proofs.Catalog.Ancestors

/-!
# Ancestors come nearest first

The search for ancestors goes up level by level: its queue holds what is left of one level, and
behind that what was met of the next one.  So an ancestor that takes fewer steps to reach is listed
before one that takes more.
-/

namespace Colloquy.Hierarchy

/-- So many steps up lead from a type to another one. -/
inductive Climbs (hierarchy : Hierarchy) (start : String) : Nat → String → Prop
  | refl : Climbs hierarchy start 0 start
  | step {steps : Nat} {name supertype : String} (path : Climbs hierarchy start steps name)
    (direct : hierarchy.Extends name supertype) : Climbs hierarchy start (steps + 1) supertype

/-- The first type takes no more steps to reach than the second one, of one step or more each. -/
def Nearer (hierarchy : Hierarchy) (start name other : String) : Prop :=
  ∀ steps, hierarchy.Climbs start (steps + 1) other →
    ∃ fewer ≤ steps, hierarchy.Climbs start (fewer + 1) name

variable {hierarchy : Hierarchy} {start name other : String}

theorem Climbs.eq_of_zero (path : hierarchy.Climbs start 0 name) : name = start := by
  cases path
  rfl

theorem climbs_one_iff : hierarchy.Climbs start 1 name ↔ hierarchy.Extends start name := by
  constructor
  · rintro (_ | ⟨_ | _, direct⟩)
    exact direct
  · exact fun direct => .step .refl direct

theorem Climbs.transGen {steps : Nat} (path : hierarchy.Climbs start (steps + 1) name) :
    Relation.TransGen hierarchy.Extends start name := by
  induction steps generalizing name with
  | zero => exact .single (climbs_one_iff.1 path)
  | succ steps ih =>
    cases path with
    | step path direct => exact .tail (ih path) direct

theorem exists_climbs_of_transGen (path : Relation.TransGen hierarchy.Extends start name) :
    ∃ steps, hierarchy.Climbs start (steps + 1) name := by
  induction path with
  | single direct => exact ⟨0, climbs_one_iff.2 direct⟩
  | tail _ direct ih =>
    obtain ⟨steps, path⟩ := ih
    exact ⟨steps + 1, .step path direct⟩

/-- The ancestors of a type are what one or more steps lead to. -/
theorem mem_ancestors_iff_climbs :
    name ∈ hierarchy.ancestors start ↔ ∃ steps, hierarchy.Climbs start (steps + 1) name := by
  rw [mem_ancestors_iff]
  exact ⟨exists_climbs_of_transGen, fun ⟨_, path⟩ => path.transGen⟩

/-- A stage of the search from a type: what was seen, the rest of the level that many steps above
its direct supertypes, and what was met of the next level. -/
structure Levelled (hierarchy : Hierarchy) (start : String) (depth : Nat)
    (seen near far : List String) : Prop where
  /-- The rest of a level. -/
  left : ∀ name ∈ near, hierarchy.Climbs start (depth + 1) name
  /-- A part of the next level. -/
  met : ∀ name ∈ far, hierarchy.Climbs start (depth + 2) name
  /-- The levels below were seen. -/
  below : ∀ steps < depth, ∀ name, hierarchy.Climbs start (steps + 1) name → name ∈ seen
  /-- Of the level nothing else is left. -/
  here : ∀ name, hierarchy.Climbs start (depth + 1) name → name ∈ seen ∨ name ∈ near
  /-- What is above a seen type was met. -/
  closed : ∀ name ∈ seen, ∀ supertype, hierarchy.Extends name supertype →
    supertype ∈ seen ∨ supertype ∈ near ++ far

variable {depth : Nat} {seen near far queue : List String}

theorem levelled_start : Levelled hierarchy start 0 [] (hierarchy.supertypes start) [] where
  left name direct := climbs_one_iff.2 direct
  met name member := by cases member
  below steps fewer := absurd fewer (Nat.not_lt_zero steps)
  here name path := .inr (climbs_one_iff.1 path)
  closed name member := by cases member

/-- Where nothing is left of a level, the next one begins. -/
theorem Levelled.rise (levelled : Levelled hierarchy start depth seen [] far) :
    Levelled hierarchy start (depth + 1) seen far [] where
  left := levelled.met
  met name member := by cases member
  below steps fewer name path := by
    rcases Nat.lt_succ_iff_lt_or_eq.1 fewer with before | rfl
    · exact levelled.below steps before name path
    · exact (levelled.here name path).resolve_right List.not_mem_nil
  here name path := by
    cases path with
    | @step _ lower _ path direct =>
      have known := (levelled.here lower path).resolve_right List.not_mem_nil
      simpa using levelled.closed lower known name direct
  closed name known supertype direct := by
    simpa using levelled.closed name known supertype direct

/-- The next type of a queue belongs to the level that the search is at, or begins the next one. -/
theorem Levelled.exists_near (levelled : Levelled hierarchy start depth seen near far)
    (next : near ++ far = name :: queue) :
    ∃ depth near far, Levelled hierarchy start depth seen (name :: near) far ∧
      near ++ far = queue := by
  cases near with
  | cons first near =>
    cases next
    exact ⟨depth, near, far, levelled, rfl⟩
  | nil =>
    cases next
    exact ⟨depth + 1, queue, [], levelled.rise, List.append_nil queue⟩

theorem Levelled.skip (levelled : Levelled hierarchy start depth seen (name :: near) far)
    (again : name ∈ seen) : Levelled hierarchy start depth seen near far where
  left other member := levelled.left other (.tail _ member)
  met := levelled.met
  below := levelled.below
  here other path := by
    rcases levelled.here other path with before | _ | ⟨_, others⟩
    · exact .inl before
    · exact .inl again
    · exact .inr others
  closed other before supertype direct := by
    rcases levelled.closed other before supertype direct with known | _ | ⟨_, others⟩
    · exact .inl known
    · exact .inl again
    · exact .inr others

theorem Levelled.visit (levelled : Levelled hierarchy start depth seen (name :: near) far) :
    Levelled hierarchy start depth (name :: seen) near (far ++ hierarchy.supertypes name) where
  left other member := levelled.left other (.tail _ member)
  met other member := by
    rcases List.mem_append.1 member with before | direct
    · exact levelled.met other before
    · exact .step (levelled.left name (.head _)) direct
  below steps fewer other path := .tail _ (levelled.below steps fewer other path)
  here other path := by
    rcases levelled.here other path with before | _ | ⟨_, others⟩
    · exact .inl (.tail _ before)
    · exact .inl (.head _)
    · exact .inr others
  closed other known supertype direct := by
    rw [← List.append_assoc]
    rcases List.mem_cons.1 known with rfl | before
    · exact .inr (List.mem_append_right _ direct)
    · rcases levelled.closed other before supertype direct with known | _ | ⟨_, others⟩
      · exact .inl (.tail _ known)
      · exact .inl (.head _)
      · exact .inr (List.mem_append_left _ others)

/-- What was not seen takes no fewer steps than the next type of the level. -/
theorem Levelled.nearer (levelled : Levelled hierarchy start depth seen (name :: near) far)
    (unseen : other ∉ seen) : hierarchy.Nearer start name other := by
  intro steps path
  refine ⟨depth, ?_, levelled.left name (.head _)⟩
  refine Nat.le_of_not_lt fun fewer => ?_
  exact unseen (levelled.below steps fewer other path)

theorem not_mem_seen_of_mem_search (hierarchy : Hierarchy) (seen queue : List String)
    (found : name ∈ hierarchy.search seen queue) : name ∉ seen := by
  induction seen, queue using search.induct hierarchy with
  | case1 seen => simp [search] at found
  | case2 seen first queue known ih =>
    rw [search, dif_pos known] at found
    exact ih found
  | case3 seen first queue fresh ih =>
    rw [search, dif_neg fresh] at found
    rcases List.mem_cons.1 found with rfl | later
    · exact fresh
    · exact fun member => ih later (.tail _ member)

theorem Levelled.sorted (levelled : Levelled hierarchy start depth seen near far)
    (whole : near ++ far = queue) :
    (hierarchy.search seen queue).Pairwise (hierarchy.Nearer start) := by
  induction seen, queue using search.induct hierarchy generalizing depth near far with
  | case1 seen =>
    rw [search]
    exact .nil
  | case2 seen name queue known ih =>
    obtain ⟨depth, near, far, levelled, rest⟩ := levelled.exists_near whole
    rw [search, dif_pos known]
    exact ih (levelled.skip known) rest
  | case3 seen name queue fresh ih =>
    obtain ⟨depth, near, far, levelled, rfl⟩ := levelled.exists_near whole
    rw [search, dif_neg fresh]
    refine .cons (fun other found => levelled.nearer fun known => ?_) ?_
    · exact hierarchy.not_mem_seen_of_mem_search _ _ found (.tail _ known)
    · exact ih levelled.visit (List.append_assoc ..).symm

/-- Each ancestor takes no more steps to reach than those listed behind it. -/
theorem ancestors_sorted (hierarchy : Hierarchy) (start : String) :
    (hierarchy.ancestors start).Pairwise (hierarchy.Nearer start) :=
  levelled_start.sorted (List.append_nil _)

end Colloquy.Hierarchy
