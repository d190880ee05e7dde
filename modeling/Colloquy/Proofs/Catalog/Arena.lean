import Mathlib.Data.List.Induction
import Colloquy.Proofs.Catalog.Links

/-!
# Discovered types in an arena

The discovered types can be kept in an arena, where they refer to each other by their positions and
are found through a table of names.  However they were discovered, the arena holds the same links as
the names do, and every position in it is that of a discovered type.
-/

namespace Colloquy

/-- A discovered type with the positions of the other ones that are assignable to it. -/
structure ArenaType where
  /-- The fully-qualified name. -/
  name : String
  /-- The positions of the types that are assignable to it, in the order of discovery. -/
  subclasses : List Nat

/-- The discovered types by position and by name. -/
structure Arena where
  /-- The types in the order of discovery. -/
  types : List ArenaType := []
  /-- The position of each type. -/
  positions : Table String Nat := []

namespace Arena

/-- The names of the types in the order of discovery. -/
def names (arena : Arena) : List String := arena.types.map (·.name)

/-- The names at some positions. -/
def namesAt (arena : Arena) (positions : List Nat) : List String :=
  positions.filterMap (arena.names[·]?)

/-- The types assignable to one with a name. -/
def subclassesOf (arena : Arena) (name : String) : List String :=
  match (arena.positions.get? name).bind (arena.types[·]?) with
  | some type => arena.namesAt type.subclasses
  | none => []

/-- The types that the one at a position is assignable to. -/
def supertypesAt (arena : Arena) (position : Nat) : List String :=
  (arena.types.filter fun type => position ∈ type.subclasses).map (·.name)

/-- The types with the links to a new one. -/
def linked (arena : Arena) (hierarchy : Hierarchy) (name : String) : List ArenaType :=
  arena.types.map fun type =>
    if hierarchy.isAssignable name type.name then
      { type with subclasses := type.subclasses ++ [arena.types.length] }
    else type

/-- The positions of the types that are assignable to a new one. -/
def below (arena : Arena) (hierarchy : Hierarchy) (name : String) : List Nat :=
  arena.types.zipIdx.filterMap fun (type, position) =>
    if hierarchy.isAssignable type.name name then some position else none

/-- The arena with a new type, which is linked to the others in both directions. -/
def enter (arena : Arena) (hierarchy : Hierarchy) (name : String) : Arena where
  types := arena.linked hierarchy name ++ [⟨name, arena.below hierarchy name⟩]
  positions := arena.positions.put name arena.types.length

/-- The position of a type, whether it was not in the arena before, and the arena with it. -/
def discover (arena : Arena) (hierarchy : Hierarchy) (name : String) : Nat × Bool × Arena :=
  match arena.positions.get? name with
  | some position => (position, false, arena)
  | none => (arena.types.length, true, arena.enter hierarchy name)

/-- The arena after types were discovered one after another. -/
def discoverAll (hierarchy : Hierarchy) (calls : List String) : Arena :=
  calls.foldl (fun arena name => (arena.discover hierarchy name).2.2) {}

/-- The discovered types with names in the place of positions. -/
def discovery (arena : Arena) : Discovery :=
  ⟨arena.types.map fun type => ⟨type.name, arena.namesAt type.subclasses⟩⟩

/-- Every position is that of a type, and the table leads to each type under its name. -/
structure Sound (arena : Arena) : Prop where
  /-- The positions of subclasses. -/
  bounds : ∀ type ∈ arena.types, ∀ position ∈ type.subclasses, position < arena.types.length
  /-- The positions in the table. -/
  table : ∀ name position,
    arena.positions.get? name = some position ↔ arena.names[position]? = some name

variable {arena : Arena} {hierarchy : Hierarchy} {name : String}

@[simp]
theorem length_names (arena : Arena) : arena.names.length = arena.types.length := by
  simp [names]

@[simp]
theorem names_discovery (arena : Arena) : arena.discovery.names = arena.names := by
  simp [discovery, Discovery.names, names]

theorem sound_empty : Sound {} where
  bounds type member := by cases member
  table name position := by simp [names, Table.get?]

theorem Sound.get?_eq_none_iff (sound : arena.Sound) :
    arena.positions.get? name = none ↔ name ∉ arena.names := by
  rw [List.mem_iff_getElem?, Option.eq_none_iff_forall_ne_some, not_exists]
  exact forall_congr' fun position => not_congr (sound.table name position)

theorem namesAt_append (arena : Arena) (front back : List Nat) :
    arena.namesAt (front ++ back) = arena.namesAt front ++ arena.namesAt back :=
  List.filterMap_append ..

theorem names_enter (arena : Arena) (hierarchy : Hierarchy) (name : String) :
    (arena.enter hierarchy name).names = arena.names ++ [name] := by
  simp only [enter, linked, names, List.map_append, List.map_map]
  congr 1
  refine List.map_congr_left fun type _ => ?_
  dsimp only [Function.comp]
  split <;> rfl

/-- What stands at positions in bounds stays there. -/
theorem namesAt_enter (hierarchy : Hierarchy) (name : String) {positions : List Nat}
    (bounds : ∀ position ∈ positions, position < arena.types.length) :
    (arena.enter hierarchy name).namesAt positions = arena.namesAt positions := by
  refine List.filterMap_congr fun position member => ?_
  rw [names_enter, List.getElem?_append_left]
  simpa using bounds position member

/-- The new type stands at the next position. -/
theorem namesAt_enter_length (arena : Arena) (hierarchy : Hierarchy) (name : String) :
    (arena.enter hierarchy name).namesAt [arena.types.length] = [name] := by
  simp [namesAt, names_enter]

theorem below_lt {position : Nat} (member : position ∈ arena.below hierarchy name) :
    position < arena.types.length := by
  obtain ⟨⟨type, other⟩, listed, assignable⟩ := List.mem_filterMap.1 member
  obtain ⟨-, rfl⟩ : _ ∧ other = position := by simpa using assignable
  exact (List.getElem?_eq_some_iff.1 (List.mem_zipIdx_iff_getElem?.1 listed)).1

/-- The types that are assignable to the new one stand at their positions. -/
theorem namesAt_below (arena : Arena) (hierarchy : Hierarchy) (name : String) :
    arena.namesAt (arena.below hierarchy name) =
      arena.names.filter (hierarchy.isAssignable · name) := by
  have here (entry : ArenaType × Nat) (member : entry ∈ arena.types.zipIdx) :
      ((if hierarchy.isAssignable entry.1.name name then some entry.2 else none).bind
          (arena.names[·]?)) =
        Option.guard (hierarchy.isAssignable · name) entry.1.name := by
    rw [Option.guard]
    split
    · simp [names, List.mem_zipIdx_iff_getElem?.1 member]
    · rfl
  rw [namesAt, below, List.filterMap_filterMap, List.filterMap_congr here,
    ← List.filterMap_eq_filter, names, List.filterMap_map]
  conv_rhs => rw [← List.zipIdx_map_fst 0 arena.types, List.filterMap_map]
  rfl

/-- A new type is linked by position as it is by name. -/
theorem Sound.discovery_enter (sound : arena.Sound) (hierarchy : Hierarchy)
    (unknown : name ∉ arena.names) :
    (arena.enter hierarchy name).discovery = arena.discovery.discover hierarchy name := by
  have unlisted : arena.discovery.contains name = false := by
    simpa [Discovery.contains] using unknown
  have newest : (arena.enter hierarchy name).namesAt (arena.below hierarchy name) =
      arena.names.filter (hierarchy.isAssignable · name) := by
    rw [namesAt_enter hierarchy name fun _ member => below_lt member, namesAt_below]
  have types : (arena.enter hierarchy name).types =
      arena.linked hierarchy name ++ [⟨name, arena.below hierarchy name⟩] := rfl
  rw [Discovery.discover, unlisted, if_neg Bool.false_ne_true, names_discovery, ← newest,
    discovery, types, List.map_append]
  refine congrArg Discovery.mk (congrArg (· ++ _) ?_)
  rw [linked, discovery, List.map_map, List.map_map]
  refine List.map_congr_left fun type member => ?_
  have kept := namesAt_enter hierarchy name (sound.bounds type member)
  dsimp only [Function.comp]
  split
  · rw [namesAt_append, kept, namesAt_enter_length]
  · rw [kept]

theorem Sound.enter (sound : arena.Sound) (hierarchy : Hierarchy) (unknown : name ∉ arena.names) :
    (arena.enter hierarchy name).Sound := by
  have count : (arena.enter hierarchy name).types.length = arena.types.length + 1 := by
    simp [Arena.enter, linked]
  constructor
  · intro type member position listed
    rw [count]
    rcases List.mem_append.1 member with old | new
    · obtain ⟨type, before, rfl⟩ := List.mem_map.1 old
      have inBounds := sound.bounds type before position
      split at listed
      · rcases List.mem_append.1 listed with earlier | last
        · exact Nat.lt_succ_of_lt (inBounds earlier)
        · exact Nat.lt_succ_of_le (Nat.le_of_eq (List.mem_singleton.1 last))
      · exact Nat.lt_succ_of_lt (inBounds listed)
    · rw [List.mem_singleton.1 new] at listed
      exact Nat.lt_succ_of_lt (below_lt listed)
  · intro other position
    have stands : (arena.enter hierarchy name).names[position]? = some other ↔
        arena.names[position]? = some other ∨ position = arena.types.length ∧ name = other := by
      rw [names_enter, ← length_names]
      grind
    rw [stands, Arena.enter]
    by_cases same : other = name
    · subst same
      have absent : ¬ arena.names[position]? = some other :=
        fun listed => unknown (List.mem_of_getElem? listed)
      simp [absent, eq_comm]
    · rw [Table.get?_put_of_ne same, sound.table]
      simp [Ne.symm same]

/-- Discovering a type keeps the arena sound, and does by position what it does by name. -/
theorem Sound.discover (sound : arena.Sound) (hierarchy : Hierarchy) (name : String) :
    (arena.discover hierarchy name).2.2.Sound ∧
      (arena.discover hierarchy name).2.2.discovery = arena.discovery.discover hierarchy name := by
  cases known : arena.positions.get? name with
  | some position =>
    have listed : name ∈ arena.names :=
      List.mem_of_getElem? ((sound.table name position).1 known)
    have contained : arena.discovery.contains name := by
      simpa [Discovery.contains] using listed
    rw [Arena.discover, known, Discovery.discover, if_pos contained]
    exact ⟨sound, rfl⟩
  | none =>
    have unknown := sound.get?_eq_none_iff.1 known
    rw [Arena.discover, known]
    exact ⟨sound.enter hierarchy unknown, sound.discovery_enter hierarchy unknown⟩

/-- A type is reported at the position where it stands from then on, and as new if it was not there
before. -/
theorem Sound.report (sound : arena.Sound) (hierarchy : Hierarchy) (name : String) :
    ((arena.discover hierarchy name).2.1 ↔ name ∉ arena.names) ∧
      (arena.discover hierarchy name).2.2.names[(arena.discover hierarchy name).1]? =
        some name := by
  cases known : arena.positions.get? name with
  | some position =>
    have stands := (sound.table name position).1 known
    rw [Arena.discover, known]
    exact ⟨by simp [List.mem_of_getElem? stands], stands⟩
  | none =>
    have unknown := sound.get?_eq_none_iff.1 known
    rw [Arena.discover, known]
    refine ⟨by simp [unknown], ?_⟩
    dsimp only
    rw [names_enter, ← length_names, List.getElem?_concat_length]

theorem Sound.subclassesOf_eq (sound : arena.Sound) (once : arena.names.Nodup) (name : String) :
    arena.subclassesOf name = arena.discovery.subclassesOf name := by
  cases known : arena.positions.get? name with
  | none =>
    have unknown : name ∉ arena.discovery.names := by
      simpa using sound.get?_eq_none_iff.1 known
    have nothing : arena.discovery.types.find? (·.name = name) = none := by
      refine List.find?_eq_none.2 fun type listed same => unknown ?_
      exact List.mem_map.2 ⟨type, listed, by simpa using same⟩
    rw [subclassesOf, known, Discovery.subclassesOf, nothing]
    rfl
  | some position =>
    have stands := (sound.table name position).1 known
    rw [names, List.getElem?_map, Option.map_eq_some_iff] at stands
    obtain ⟨type, here, rfl⟩ := stands
    have listed : (⟨type.name, arena.namesAt type.subclasses⟩ : DiscoveredType) ∈
        arena.discovery.types :=
      List.mem_map.2 ⟨type, List.mem_of_getElem? here, rfl⟩
    rw [← names_discovery] at once
    rw [subclassesOf, known, Option.bind_some, here]
    exact (Discovery.subclassesOf_of_mem once listed).symm

theorem supertypesAt_eq (once : arena.names.Nodup) {position : Nat}
    (stands : arena.names[position]? = some name) :
    arena.supertypesAt position = arena.discovery.supertypesOf name := by
  have inBounds : position < arena.names.length := (List.getElem?_eq_some_iff.1 stands).1
  rw [supertypesAt, Discovery.supertypesOf, discovery, List.filter_map, List.map_map]
  congr 1
  refine List.filter_congr fun type _ => decide_eq_decide.2 ?_
  constructor
  · exact fun member => List.mem_filterMap.2 ⟨position, member, stands⟩
  · intro member
    obtain ⟨other, listed, same⟩ := List.mem_filterMap.1 member
    rwa [(List.getElem?_inj inBounds once).1 (stands.trans same.symm)]

end Arena

/-- The discovered types after one was discovered after another. -/
def Discovery.discoverAll (hierarchy : Hierarchy) (calls : List String) : Discovery :=
  calls.foldl (·.discover hierarchy ·) {}

namespace Discovery

variable (hierarchy : Hierarchy) (calls : List String)

theorem discoverAll_concat (name : String) :
    discoverAll hierarchy (calls ++ [name]) =
      (discoverAll hierarchy calls).discover hierarchy name :=
  List.foldl_concat ..

theorem linked_discoverAll : (discoverAll hierarchy calls).Linked hierarchy := by
  induction calls using List.reverseRecOn with
  | nil => exact linked_empty hierarchy
  | append_singleton calls name ih =>
    rw [discoverAll_concat]
    exact ih.discover name

/-- The types come in the order of their first discovery. -/
theorem names_discoverAll : (discoverAll hierarchy calls).names = calls.eraseDups := by
  induction calls using List.reverseRecOn with
  | nil => rfl
  | append_singleton calls name ih =>
    rw [discoverAll_concat, List.eraseDups_append]
    by_cases known : (discoverAll hierarchy calls).contains name
    · have before : name ∈ calls := by simpa [contains_iff, ih] using known
      rw [Discovery.discover, if_pos known, ih]
      simp [List.removeAll, before]
    · have first : name ∉ calls := by simpa [contains_iff, ih] using known
      rw [names_discover known, ih]
      simp [List.removeAll, first, List.eraseDups_cons]

end Discovery

namespace Arena

theorem sound_discoverAll (hierarchy : Hierarchy) (calls : List String) :
    (discoverAll hierarchy calls).Sound ∧
      (discoverAll hierarchy calls).discovery = Discovery.discoverAll hierarchy calls := by
  induction calls using List.reverseRecOn with
  | nil => exact ⟨sound_empty, rfl⟩
  | append_singleton calls name ih =>
    have step : discoverAll hierarchy (calls ++ [name]) =
        ((discoverAll hierarchy calls).discover hierarchy name).2.2 :=
      List.foldl_concat ..
    obtain ⟨sound, same⟩ := ih.1.discover hierarchy name
    rw [step, Discovery.discoverAll_concat, ← ih.2]
    exact ⟨sound, same⟩

/-- However types are discovered, and whatever cycles there are among them, each one is in the arena
once, at the place of its first discovery, and only that is reported as new.  Of two discovered
types, one is among the subclasses of the other, and that among the supertypes of the first, exactly
if it is assignable to it; the types are listed once, in the order of discovery and without the type
itself.  Every position in the arena is that of a type. -/
theorem discoverAll_exact (hierarchy : Hierarchy) (calls : List String) :
    let arena := discoverAll hierarchy calls
    let discovery := Discovery.discoverAll hierarchy calls
    (arena.discovery = discovery ∧
      (∀ name, arena.subclassesOf name = discovery.subclassesOf name) ∧
      ∀ name position, arena.names[position]? = some name →
        arena.supertypesAt position = discovery.supertypesOf name) ∧
    (discovery.names.Nodup ∧ discovery.names = calls.eraseDups ∧
      ∀ name, ((arena.discover hierarchy name).2.1 ↔ name ∉ calls) ∧
        (arena.discover hierarchy name).2.2.names[(arena.discover hierarchy name).1]? =
          some name) ∧
    (∀ lower upper, discovery.contains lower → discovery.contains upper → lower ≠ upper →
      (lower ∈ discovery.subclassesOf upper ↔ hierarchy.isAssignable lower upper) ∧
        (upper ∈ discovery.supertypesOf lower ↔ hierarchy.isAssignable lower upper)) ∧
    (∀ name, discovery.contains name →
      ∀ others ∈ [discovery.subclassesOf name, discovery.supertypesOf name],
        others.Nodup ∧ name ∉ others ∧ others.Sublist discovery.names) ∧
    (∀ type ∈ arena.types, ∀ position ∈ type.subclasses, position < arena.types.length) ∧
    ∀ name position, arena.positions.get? name = some position →
      position < arena.types.length := by
  intro arena discovery
  obtain ⟨sound, same⟩ : arena.Sound ∧ arena.discovery = discovery :=
    sound_discoverAll hierarchy calls
  have linked : discovery.Linked hierarchy := Discovery.linked_discoverAll hierarchy calls
  have order : discovery.names = calls.eraseDups := Discovery.names_discoverAll hierarchy calls
  have names : arena.names = discovery.names := by
    rw [← same, names_discovery]
  have once : arena.names.Nodup := names ▸ linked.nodup
  refine ⟨⟨same, fun name => same ▸ sound.subclassesOf_eq once name, fun name position stands =>
      same ▸ supertypesAt_eq once stands⟩, ⟨linked.nodup, order, fun name => ?_⟩, ?_, ?_,
    sound.bounds, fun name position known => ?_⟩
  · have listed : name ∈ arena.names ↔ name ∈ calls := by
      rw [names, order, List.mem_eraseDups]
    exact ⟨(sound.report hierarchy name).1.trans (not_congr listed),
      (sound.report hierarchy name).2⟩
  · intro lower upper lowerKnown upperKnown apart
    rw [linked.mem_subclassesOf_iff upperKnown, linked.mem_supertypesOf_iff lowerKnown]
    exact ⟨by simp [lowerKnown, apart], by simp [upperKnown, apart]⟩
  · intro name known
    rw [linked.subclassesOf_eq known, linked.supertypesOf_eq known]
    simp only [List.forall_mem_cons, List.not_mem_nil, false_imp_iff, implies_true, and_true]
    exact ⟨⟨linked.nodup.filter _, by simp, List.filter_sublist⟩,
      linked.nodup.filter _, by simp, List.filter_sublist⟩
  · have stands := (sound.table name position).1 known
    rw [← length_names]
    exact (List.getElem?_eq_some_iff.1 stands).1

/-- Cats are pets and pets are cats. -/
def pets : Hierarchy := ⟨[("Cat", ["Pet"]), ("Pet", ["Cat"])]⟩

/-- Types in a circle are listed above and below each other, and not by themselves. -/
theorem discoverAll_pets :
    let calls := ["Pet", "Cat", "Pet"]
    let arena := discoverAll pets calls
    let discovery := Discovery.discoverAll pets calls
    arena.names[1]? = some "Cat" ∧ arena.supertypesAt 1 = discovery.supertypesOf "Cat" ∧
      discovery.contains "Cat" ∧ discovery.contains "Pet" ∧ "Cat" ≠ "Pet" ∧
      ("Cat" ∈ discovery.subclassesOf "Pet" ↔ pets.isAssignable "Cat" "Pet") ∧
      ("Pet" ∈ discovery.supertypesOf "Cat" ↔ pets.isAssignable "Cat" "Pet") ∧
      "Cat" ∉ discovery.supertypesOf "Cat" ∧
      arena.positions.get? "Cat" = some 1 ∧ 1 < arena.types.length := by
  intro calls arena discovery
  obtain ⟨⟨-, -, read⟩, ⟨-, order, -⟩, exact, lists, -, bounds⟩ := discoverAll_exact pets calls
  have cat : discovery.contains "Cat" := by simp [Discovery.contains_iff, discovery, order, calls]
  have pet : discovery.contains "Pet" := by simp [Discovery.contains_iff, discovery, order, calls]
  have apart : "Cat" ≠ "Pet" := by decide
  have stands : arena.names[1]? = some "Cat" := rfl
  have position : arena.positions.get? "Cat" = some 1 := rfl
  obtain ⟨below, above⟩ := exact "Cat" "Pet" cat pet apart
  exact ⟨stands, read "Cat" 1 stands, cat, pet, apart, below, above,
    (lists "Cat" cat _ (.tail _ (.head _))).2.1, position, bounds "Cat" 1 position⟩

end Arena

end Colloquy
