import Colloquy.Catalog.Basic
import Colloquy.Proofs.Signature.Reading

/-!
# The members of a catalog

A property of all members of a catalog holds of whatever is found in it, and it holds in a catalog
if it holds of each member that the catalog was built from.
-/

namespace Colloquy

namespace Catalog

/-- Every member of the catalog has a property in its place. -/
def Each (holds : MemberKey → Member → Prop) (catalog : Catalog) : Prop :=
  ∀ key, ∀ member ∈ catalog.membersAt key, holds key member

/-- Every host function of the catalog has a property. -/
def Every (holds : Native → Prop) (catalog : Catalog) : Prop :=
  ∀ key, ∀ member ∈ catalog.membersAt key, holds member.run

variable {catalog : Catalog}

theorem every_of_members {holds : Native → Prop}
    (each : ∀ entry ∈ catalog.members, ∀ member ∈ entry.2, holds member.run) :
    catalog.Every holds := by
  intro key member listed
  unfold membersAt at listed
  cases found : catalog.members.get? key with
  | none =>
    rw [found] at listed
    cases listed
  | some members =>
    rw [found] at listed
    obtain ⟨before, after, same, -⟩ := List.lookup_eq_some_iff.1 found
    have entry : (key, members) ∈ catalog.members := by
      rw [same]
      exact List.mem_append_right _ (List.mem_cons_self ..)
    exact each _ entry member listed

/-- A member that is found has the parameters that it was looked for with. -/
theorem mem_of_findExact? {kind : MemberKind} {key : MemberKey} {params : Signature}
    {member : Member} (found : catalog.findExact? kind key params = some member) :
    member ∈ catalog.membersAt key ∧ member.kind = kind ∧
      member.signature.params = params.params := by
  have fits := List.find?_some found
  simp only [Member.fits, Signature.sameParams, Bool.and_eq_true, decide_eq_true_eq] at fits
  exact ⟨List.mem_of_find?_eq_some found, fits.1, fits.2.1⟩

/-- An instance member is found with a type that the receiver is assignable to. -/
theorem mem_of_findInstance? {typeName name : String} {params : Signature} {member : Member}
    (found : catalog.findInstance? typeName name params = some member) :
    ∃ owner, catalog.hierarchy.isAssignable typeName owner ∧
      member ∈ catalog.membersAt ⟨owner, some name⟩ ∧ member.kind = .method ∧
        member.signature.params = params.params := by
  obtain ⟨owner, above, exactly⟩ := List.exists_of_findSome?_eq_some found
  refine ⟨owner, ?_, mem_of_findExact? exactly⟩
  rcases List.mem_cons.1 above with rfl | higher
  · simp [Hierarchy.isAssignable]
  · simp [Hierarchy.isAssignable, higher]

theorem Every.of_findExact? {holds : Native → Prop} (every : catalog.Every holds)
    {kind : MemberKind} {key : MemberKey} {params : Signature} {member : Member}
    (found : catalog.findExact? kind key params = some member) : holds member.run :=
  every key member (mem_of_findExact? found).1

theorem Every.of_findInstance? {holds : Native → Prop} (every : catalog.Every holds)
    {typeName name : String} {params : Signature} {member : Member}
    (found : catalog.findInstance? typeName name params = some member) : holds member.run := by
  obtain ⟨owner, -, listed, -⟩ := mem_of_findInstance? found
  exact every _ member listed

variable {kind : MemberKind} {key : MemberKey} {signature : String} {run : Native}
  {later : Catalog}

/-- A member takes the place of those of its kind and parameters, and no other members change. -/
theorem membersAt_file (catalog : Catalog) (key other : MemberKey) (new : Member) :
    (catalog.file key new).membersAt other =
      if other = key then
        (catalog.membersAt key).filter (fun member => !member.fits new.kind new.signature) ++ [new]
      else catalog.membersAt other := by
  rw [file, membersAt]
  split
  · rename_i same
    rw [same, Table.get?_put_self, Option.getD_some]
  · rename_i different
    rw [Table.get?_put_of_ne different]
    rfl

/-- A member is filed if its type is declared and its parameters can be read, and otherwise the
catalog stays as it was. -/
theorem addMember_run (catalog : Catalog) (kind : MemberKind) (key : MemberKey)
    (signature : String) (run : Native) :
    (addMember kind key signature run).run.run catalog =
      if catalog.hierarchy.contains key.typeName then
        match catalog.parseSignature signature with
        | .ok params => (.ok (), catalog.file key ⟨kind, params, run⟩)
        | .error error => (.error error, catalog)
      else (.error (.unresolvableType key.typeName), catalog) := by
  by_cases declared : catalog.hierarchy.contains key.typeName
  · rw [if_pos declared, addMember, run_get_bind, if_pos declared]
    cases catalog.parseSignature signature <;> rfl
  · rw [if_neg declared, addMember, run_get_bind, if_neg declared]
    rfl

theorem define_eq (catalog : Catalog) (kind : MemberKind) (key : MemberKey)
    (signature : String) (run : Native) :
    catalog.define kind key signature run =
      if catalog.hierarchy.contains key.typeName then
        (catalog.parseSignature signature).map fun params => catalog.file key ⟨kind, params, run⟩
      else .error (.unresolvableType key.typeName) := by
  rw [Catalog.define, addMember_run]
  by_cases declared : catalog.hierarchy.contains key.typeName
  · rw [if_pos declared, if_pos declared]
    cases catalog.parseSignature signature <;> rfl
  · rw [if_neg declared, if_neg declared]
    rfl

/-- A defined member joins those that are kept under its key, and no type is declared. -/
theorem Each.define {holds : MemberKey → Member → Prop} (each : catalog.Each holds)
    (fresh : ∀ params, catalog.parseSignature signature = .ok params →
      holds key ⟨kind, params, run⟩)
    (defined : catalog.define kind key signature run = .ok later) :
    later.Each holds ∧ later.hierarchy = catalog.hierarchy := by
  rw [define_eq] at defined
  split at defined
  · cases parsed : catalog.parseSignature signature with
    | error error =>
      rw [parsed] at defined
      cases defined
    | ok params =>
      rw [parsed] at defined
      cases defined
      refine ⟨fun other member listed => ?_, rfl⟩
      rw [membersAt_file] at listed
      split at listed
      · rename_i same
        subst same
        rcases List.mem_append.1 listed with kept | new
        · exact each other member (List.mem_filter.1 kept).1
        · rw [List.mem_singleton.1 new]
          exact fresh params parsed
      · exact each other member listed
  · cases defined

end Catalog

end Colloquy
