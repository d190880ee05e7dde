import Mathlib.Data.Nat.Find
import Colloquy.Proofs.Catalog.Distance
import Colloquy.Proofs.Catalog.Members

/-!
# Which implementation a receiver has

An instance member is found on the nearest type that has one.  That is a most specific one, whatever
members there are, exactly if each type strictly between the receiver and a supertype is searched
before that supertype.  A supertype that is declared again beside a type below it comes too early.
-/

namespace Colloquy

theorem Table.put_of_not_mem_keys {Key Entry : Type} [DecidableEq Key] {table : Table Key Entry}
    {key : Key} (fresh : key ∉ table.keys) (entry : Entry) :
    table.put key entry = table ++ [(key, entry)] := by
  induction table with
  | nil => rfl
  | cons pair rest ih =>
    obtain ⟨first, old⟩ := pair
    obtain ⟨apart, others⟩ : key ≠ first ∧ key ∉ Table.keys rest := by
      simpa [Table.keys] using fresh
    rw [Table.put, if_neg apart.symm, ih others]
    rfl

namespace Hierarchy

/-- A type with its ancestors, in the order in which they are searched for members. -/
def lineage (hierarchy : Hierarchy) (name : String) : List String :=
  name :: hierarchy.ancestors name

/-- The type lies strictly between two others. -/
structure Between (hierarchy : Hierarchy) (lower middle upper : String) : Prop where
  /-- It is above the lower type. -/
  above : hierarchy.isAssignable lower middle
  /-- It is below the upper type. -/
  below : hierarchy.isAssignable middle upper
  /-- The upper type is not below it. -/
  apart : hierarchy.isAssignable upper middle = false

theorem Between.ne {hierarchy : Hierarchy} {lower middle upper : String}
    (between : hierarchy.Between lower middle upper) : middle ≠ upper := by
  rintro rfl
  cases (hierarchy.isAssignable_self middle).symm.trans between.apart

theorem contains_declare (hierarchy : Hierarchy) (name : String) (supertypes : List String)
    {other : String} (declared : hierarchy.contains other) :
    (hierarchy.declare name supertypes).contains other := by
  by_cases same : other = name
  · subst same
    simp [contains, Table.has, declare]
  · simpa [contains, Table.has, declare, Table.get?_put_of_ne same] using declared

end Hierarchy

namespace Catalog

section Owner

variable (catalog : Catalog) (receiver name : String) (params : Signature)

/-- A type has an instance member of its own. -/
def offers (owner : String) : Bool :=
  (catalog.findExact? .method ⟨owner, some name⟩ params).isSome

/-- The type that the instance member of a receiver is found on. -/
def findOwner? : Option String :=
  (catalog.hierarchy.lineage receiver).find? (catalog.offers name params)

/-- The instance member of a receiver is that of its owner. -/
theorem findInstance?_eq_bind :
    catalog.findInstance? receiver name params =
      (catalog.findOwner? receiver name params).bind fun owner =>
        catalog.findExact? .method ⟨owner, some name⟩ params := by
  change (catalog.hierarchy.lineage receiver).findSome? _ = _
  rw [findOwner?]
  induction catalog.hierarchy.lineage receiver with
  | nil => rfl
  | cons owner owners ih =>
    rw [List.findSome?_cons, List.find?_cons, offers]
    cases found : catalog.findExact? .method ⟨owner, some name⟩ params with
    | none => exact ih
    | some member => exact found.symm

end Owner

variable {catalog : Catalog} {receiver name owner : String} {params : Signature}

/-- Of the ancestors that have a member the search finds one that none of the others is nearer
than. -/
theorem nearer_of_find? (found :
      (catalog.hierarchy.ancestors receiver).find? (catalog.offers name params) = some owner) :
    ∀ other ∈ catalog.hierarchy.ancestors receiver, catalog.offers name params other →
      catalog.hierarchy.Nearer receiver owner other := by
  obtain ⟨-, before, after, parts, others⟩ := List.find?_eq_some_iff_append.1 found
  have sorted := catalog.hierarchy.ancestors_sorted receiver
  rw [parts] at sorted ⊢
  obtain ⟨nearer, -⟩ := List.pairwise_cons.1 (List.pairwise_append.1 sorted).2.1
  intro other listed offers
  rcases List.mem_append.1 listed with early | _ | ⟨_, late⟩
  · have none := others other early
    simp [offers] at none
  · exact fun steps path => ⟨steps, Nat.le_refl steps, path⟩
  · exact nearer other late

/-- The owner of a member takes no more steps to reach than any type that has one. -/
theorem climbs_of_findOwner? (found : catalog.findOwner? receiver name params = some owner) :
    ∃ steps, catalog.hierarchy.Climbs receiver steps owner ∧
      ∀ other more, catalog.offers name params other →
        catalog.hierarchy.Climbs receiver more other → steps ≤ more := by
  classical
  rw [findOwner?, Hierarchy.lineage, List.find?_cons] at found
  cases own : catalog.offers name params receiver with
  | true =>
    rw [own] at found
    cases found
    exact ⟨0, .refl, fun _ more _ _ => Nat.zero_le more⟩
  | false =>
    rw [own] at found
    have higher := List.mem_of_find?_eq_some found
    have reached := Hierarchy.mem_ancestors_iff_climbs.1 higher
    refine ⟨Nat.find reached + 1, Nat.find_spec reached, fun other more offers path => ?_⟩
    cases more with
    | zero =>
      rw [path.eq_of_zero, own] at offers
      cases offers
    | succ more =>
      have listed := Hierarchy.mem_ancestors_iff_climbs.2 ⟨more, path⟩
      obtain ⟨fewer, within, nearer⟩ := nearer_of_find? found other listed offers more path
      exact Nat.succ_le_succ (Nat.le_trans (Nat.find_min' reached nearer) within)

/-- The instance member of a receiver is found on a type that takes no more steps to reach than any
other type with such a member. -/
theorem findInstance?_nearest {member : Member}
    (found : catalog.findInstance? receiver name params = some member) :
    ∃ owner steps, catalog.findExact? .method ⟨owner, some name⟩ params = some member ∧
      catalog.hierarchy.Climbs receiver steps owner ∧
      ∀ other more, catalog.offers name params other →
        catalog.hierarchy.Climbs receiver more other → steps ≤ more := by
  rw [findInstance?_eq_bind, Option.bind_eq_some_iff] at found
  obtain ⟨owner, owned, exactly⟩ := found
  obtain ⟨steps, path, nearest⟩ := climbs_of_findOwner? owned
  exact ⟨owner, steps, exactly, path, nearest⟩

/-- The catalog is that of the value types, with declared types and defined members. -/
inductive Built : Catalog → Prop
  | ofValues : Built ofValues
  | declareType {catalog : Catalog} (built : Built catalog) (typeName : String)
    (supertypes : List String) : Built (catalog.declareType typeName supertypes)
  | define {catalog later : Catalog} {kind : MemberKind} {key : MemberKey} {signature : String}
    {run : Native} (built : Built catalog)
    (defined : catalog.define kind key signature run = .ok later) : Built later

/-- A member is defined on declared types only, and types stay declared. -/
theorem Built.declared (built : catalog.Built) :
    catalog.Each fun key _ => catalog.hierarchy.contains key.typeName := by
  induction built with
  | ofValues => exact fun _ _ listed => nomatch listed
  | @declareType catalog _ typeName supertypes ih =>
    exact fun key member listed =>
      catalog.hierarchy.contains_declare typeName supertypes (ih key member listed)
  | @define catalog later kind key signature run _ defined ih =>
    have declared : catalog.hierarchy.contains key.typeName := by
      by_contra undeclared
      rw [define_eq, if_neg undeclared] at defined
      cases defined
    obtain ⟨each, same⟩ := Each.define ih (fun _ _ => declared) defined
    rw [same]
    exact each

theorem Built.contains (built : catalog.Built) (offers : catalog.offers name params owner) :
    catalog.hierarchy.contains owner := by
  obtain ⟨member, found⟩ := Option.isSome_iff_exists.1 offers
  exact built.declared _ member (mem_of_findExact? found).1

/-- The types of a built catalog can be declared without any members. -/
theorem Built.bare (built : catalog.Built) : Built ⟨catalog.hierarchy, []⟩ := by
  induction built with
  | ofValues => exact .ofValues
  | declareType _ typeName supertypes ih => exact ih.declareType typeName supertypes
  | @define catalog later kind key signature run _ defined ih =>
    have each : catalog.Each fun _ _ => True := fun _ _ _ => trivial
    rw [(each.define (fun _ _ => trivial) defined).2]
    exact ih

/-- The member that each of some types has in a catalog, all under one name. -/
def common : Member := ⟨.method, ⟨[], false, none⟩, fun _ => return .null⟩

/-- A catalog in which just the given types have the common member. -/
def ofOwners (hierarchy : Hierarchy) (owners : List String) : Catalog where
  hierarchy
  members := owners.map fun owner => (⟨owner, some "common"⟩, [common])

theorem membersAt_ofOwners (hierarchy : Hierarchy) (owners : List String) (owner : String) :
    (ofOwners hierarchy owners).membersAt ⟨owner, some "common"⟩ =
      if owner ∈ owners then [common] else [] := by
  induction owners with
  | nil => rfl
  | cons first owners ih =>
    rw [membersAt, ofOwners, List.map_cons, Table.get?_cons]
    by_cases same : first = owner
    · simp [same]
    · rw [if_neg (by simpa using same)]
      exact ih.trans (by simp [Ne.symm same])

theorem offers_ofOwners (hierarchy : Hierarchy) (owners : List String) :
    (ofOwners hierarchy owners).offers "common" common.signature owner ↔ owner ∈ owners := by
  rw [offers, findExact?, membersAt_ofOwners]
  split
  · rename_i owned
    simpa [common, Member.fits, Signature.sameParams] using owned
  · rename_i unowned
    simpa using unowned

theorem define_common {hierarchy : Hierarchy} {owners : List String}
    (declared : hierarchy.contains owner) (fresh : owner ∉ owners) :
    (ofOwners hierarchy owners).define .method ⟨owner, some "common"⟩ "()" common.run =
      .ok (ofOwners hierarchy (owners ++ [owner])) := by
  have others : (ofOwners hierarchy owners).membersAt ⟨owner, some "common"⟩ = [] := by
    rw [membersAt_ofOwners, if_neg fresh]
  have unfiled : (⟨owner, some "common"⟩ : MemberKey) ∉
      (ofOwners hierarchy owners).members.keys := by
    simpa [ofOwners, Table.keys] using fresh
  have added : (ofOwners hierarchy owners).members.put ⟨owner, some "common"⟩ [common] =
      (ofOwners hierarchy (owners ++ [owner])).members := by
    rw [Table.put_of_not_mem_keys unfiled]
    simp [ofOwners]
  rw [define_eq, if_pos (show (ofOwners hierarchy owners).hierarchy.contains owner from declared)]
  change Except.ok (Catalog.mk hierarchy _) =
    .ok (Catalog.mk hierarchy (ofOwners hierarchy (owners ++ [owner])).members)
  rw [others, ← added]
  rfl

theorem Built.ofOwners (built : catalog.Built) {other : String}
    (ownerDeclared : catalog.hierarchy.contains owner)
    (otherDeclared : catalog.hierarchy.contains other) (apart : other ≠ owner) :
    Built (ofOwners catalog.hierarchy [owner, other]) := by
  have first := define_common ownerDeclared List.not_mem_nil
  have second := define_common otherDeclared (mt List.mem_singleton.1 apart)
  exact .define (.define built.bare first) second

theorem idxOf_lt_iff {before after : List String} {other : String} (first : owner ∉ before) :
    (before ++ owner :: after).idxOf other < (before ++ owner :: after).idxOf owner ↔
      other ∈ before := by
  rw [List.idxOf_append, List.idxOf_append, if_neg first, List.idxOf_cons_self, Nat.zero_add]
  by_cases early : other ∈ before
  · simp [early, List.idxOf_lt_length_of_mem early]
  · simp [early]

/-- On the types of a built catalog, the member that is found for a receiver is a most specific one,
whatever members there are, exactly if each declared type strictly between the receiver and another
one is searched before that one. -/
theorem mostSpecific_iff (built : catalog.Built) (receiver : String) :
    (∀ later : Catalog, later.Built → later.hierarchy = catalog.hierarchy →
      ∀ name params owner, later.findOwner? receiver name params = some owner →
        ∀ other, catalog.hierarchy.Between receiver other owner →
          later.offers name params other = false) ↔
      ∀ owner other, catalog.hierarchy.contains owner → catalog.hierarchy.contains other →
        owner ∈ catalog.hierarchy.lineage receiver →
        catalog.hierarchy.Between receiver other owner →
        (catalog.hierarchy.lineage receiver).idxOf other <
          (catalog.hierarchy.lineage receiver).idxOf owner := by
  constructor
  · intro specific owner other ownerDeclared otherDeclared listed between
    obtain ⟨before, after, parts, first⟩ := List.eq_append_cons_of_mem listed
    rw [parts, idxOf_lt_iff first]
    by_contra late
    -- with a common member on both types, that of the upper one is found
    have both := built.ofOwners ownerDeclared otherDeclared between.ne
    have found : (ofOwners catalog.hierarchy [owner, other]).findOwner? receiver "common"
        common.signature = some owner := by
      refine List.find?_eq_some_iff_append.2 ⟨?_, before, after, parts, fun earlier member => ?_⟩
      · exact (offers_ofOwners _ _).2 (.head _)
      · rw [Bool.not_eq_true', Bool.eq_false_iff]
        intro offers
        rcases List.mem_cons.1 ((offers_ofOwners _ _).1 offers) with rfl | second
        · exact first member
        · exact late (List.mem_singleton.1 second ▸ member)
    have none := specific _ both rfl "common" common.signature owner found other between
    rw [(offers_ofOwners _ _).2 (.tail _ (.head _))] at none
    cases none
  · intro early later rebuilt same name params owner found other between
    rw [← same] at early between
    refine Bool.eq_false_iff.2 fun offers => ?_
    obtain ⟨owns, before, after, parts, others⟩ := List.find?_eq_some_iff_append.1 found
    have first : owner ∉ before := fun member => by simpa [owns] using others owner member
    have order := early owner other (rebuilt.contains owns) (rebuilt.contains offers)
      (List.mem_of_find?_eq_some found) between
    rw [parts, idxOf_lt_iff first] at order
    simpa [offers] using others other order

/-- Shapes, with round ones among them, and discs, which are declared as shapes besides. -/
def shapes : Catalog :=
  ((ofValues.declareType "Shape" []).declareType "Round" ["Shape"]).declareType "Disc"
    ["Shape", "Round"]

/-- The shapes with an area on each of the given types, which tells its type. -/
def withAreas (owners : List String) : Except RuntimeError Catalog :=
  owners.foldlM (fun catalog owner =>
    catalog.define .method ⟨owner, some "area"⟩ "()" fun _ => return .str owner) shapes

theorem ancestors_shapes :
    shapes.hierarchy.ancestors "Shape" = [TypeName.object] ∧
      shapes.hierarchy.ancestors "Round" = ["Shape", TypeName.object] ∧
      shapes.hierarchy.ancestors "Disc" = ["Shape", "Round", TypeName.object] := by
  have root : shapes.hierarchy.supertypes TypeName.object = [] := rfl
  have shape : shapes.hierarchy.supertypes "Shape" = [TypeName.object] := rfl
  have round : shapes.hierarchy.supertypes "Round" = ["Shape"] := rfl
  have disc : shapes.hierarchy.supertypes "Disc" = ["Shape", "Round"] := rfl
  rw [TypeName.object] at *
  refine ⟨?_, ?_, ?_⟩
  · simp [Hierarchy.ancestors, Hierarchy.search, root, shape]
  · simp [Hierarchy.ancestors, Hierarchy.search, root, shape, round]
  · simp [Hierarchy.ancestors, Hierarchy.search, root, shape, round, disc]

theorem between_disc : shapes.hierarchy.Between "Disc" "Round" "Shape" := by
  obtain ⟨shape, round, disc⟩ := ancestors_shapes
  refine ⟨?_, ?_, ?_⟩
  · simp [Hierarchy.isAssignable, disc]
  · simp [Hierarchy.isAssignable, round]
  · simp [Hierarchy.isAssignable, shape, TypeName.object]

/-- Round shapes are searched behind shapes for the members of a disc, so these are not the most
specific ones whatever members there are. -/
theorem mostSpecific_disc :
    shapes.Built ∧
      ¬ ∀ later : Catalog, later.Built → later.hierarchy = shapes.hierarchy →
        ∀ name params owner, later.findOwner? "Disc" name params = some owner →
          ∀ other, shapes.hierarchy.Between "Disc" other owner →
            later.offers name params other = false := by
  have built : shapes.Built := .declareType (.declareType (.declareType .ofValues _ _) _ _) _ _
  have lineage : shapes.hierarchy.lineage "Disc" = ["Disc", "Shape", "Round", TypeName.object] :=
    congrArg _ ancestors_shapes.2.2
  refine ⟨built, fun specific => ?_⟩
  have early := (mostSpecific_iff built "Disc").1 specific "Shape" "Round" rfl rfl
    (by simp [lineage]) between_disc
  rw [lineage] at early
  exact absurd early (by decide)

/-- A disc has the area of shapes, though it is round and round shapes have an area of their
own. -/
theorem area_of_disc :
    ∃ catalog, withAreas ["Shape", "Round"] = .ok catalog ∧
      catalog.findOwner? "Disc" "area" ⟨[], false, none⟩ = some "Shape" ∧
      catalog.hierarchy.Between "Disc" "Round" "Shape" ∧
      catalog.offers "area" ⟨[], false, none⟩ "Round" := by
  refine ⟨_, rfl, ?_, between_disc, rfl⟩
  change ("Disc" :: shapes.hierarchy.ancestors "Disc").find? _ = _
  rw [ancestors_shapes.2.2]
  rfl

end Catalog

end Colloquy
