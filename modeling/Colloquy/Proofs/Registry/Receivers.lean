import Colloquy.Proofs.Registry.Meaning
import Colloquy.Proofs.Registry.Search
import Colloquy.Proofs.Text.Cut

/-!
# Calls on receivers

A virtual call is made under the class name of its receiver, which is looked up like a written name.
It reaches the class itself unless another type was imported under that very name, which can only
happen to a class whose name has no dot.
-/

namespace Colloquy.Registry

/-- A short name has no dot. -/
theorem dot_not_mem_shortName (qualified : String) : '.' ∉ (shortName qualified).toList := by
  rw [shortName, String.toList_ofList]
  exact Text.not_mem_lastSegment qualified.toList

/-- A name that nothing is imported under keeps the meaning that it has at first. -/
theorem meaning_unimported {registry : Registry} {actions : List Action} {name : String}
    (unimported : ∀ index qualified, registry.ImportsAt actions index qualified →
      shortName qualified ≠ name) (count : Nat) :
    registry.meaning actions name count = registry.lookupType? name := by
  induction count with
  | zero => rfl
  | succ index ih => rw [meaning_succ (unimported index), ih]

theorem meaning_length (registry : Registry) (actions : List Action) (name : String) :
    registry.meaning actions name actions.length = (registry.run actions).lookupType? name := by
  rw [meaning, List.take_length]

/-- Whatever is imported in a run is what its short name refers to in the end. -/
theorem lookupType?_run_imported {registry : Registry} {actions : List Action} {index : Nat}
    {qualified : String} (imports : registry.ImportsAt actions index qualified) :
    (registry.run actions).lookupType? (shortName qualified) = some qualified := by
  obtain ⟨inside, -⟩ := List.getElem?_eq_some_iff.1 imports.1
  rw [← meaning_length]
  exact meaning_later imports inside

/-- A declared name refers to what was imported under it, and otherwise to itself. -/
theorem lookupType?_run_declared {catalog : Catalog} {name : String}
    (declared : catalog.hierarchy.contains name) (packages : List String) (order : TableOrder)
    (actions : List Action) :
    (∃ index qualified, (fresh catalog packages order).ImportsAt actions index qualified ∧
        shortName qualified = name ∧
        ((fresh catalog packages order).run actions).lookupType? name = some qualified) ∨
      (∀ index qualified, (fresh catalog packages order).ImportsAt actions index qualified →
          shortName qualified ≠ name) ∧
        ((fresh catalog packages order).run actions).lookupType? name = some name := by
  by_cases imported : ∃ index qualified,
      (fresh catalog packages order).ImportsAt actions index qualified ∧ shortName qualified = name
  · obtain ⟨index, qualified, imports, rfl⟩ := imported
    exact .inl ⟨index, qualified, imports, rfl, lookupType?_run_imported imports⟩
  · have unimported : ∀ index qualified,
        (fresh catalog packages order).ImportsAt actions index qualified →
          shortName qualified ≠ name :=
      fun index qualified imports same => imported ⟨index, qualified, imports, same⟩
    refine .inr ⟨unimported, ?_⟩
    rw [← meaning_length, meaning_unimported unimported]
    exact lookupType?_of_contains rfl declared

/-- A virtual call on a receiver searches the virtual handles of a type. -/
def CallsOn (registry : Registry) (heap : Heap) (operation : String) (receiver : Value)
    (args : List Value) (qualified : String) : Prop :=
  let handles := (registry.discover qualified).handles qualified (some operation)
  EndsBySearch registry.catalog heap (receiver :: args) qualified operation (handles ≠ [])
    ((trialOrder handles (args.length + 1)).filter fun handle => virtualOnly handle.kind)
    (registry.invoke heap virtualOnly receiver.typeName (some operation) (receiver :: args)).1

theorem callsOn_lookupType? {registry : Registry} {receiver : Value} {qualified : String}
    (found : registry.lookupType? receiver.typeName = some qualified) (heap : Heap)
    (operation : String) (args : List Value) :
    registry.CallsOn heap operation receiver args qualified := by
  have ending := invoke_endsBySearch found heap virtualOnly (some operation) (receiver :: args)
  rw [candidates, lookupType?_discover, found] at ending
  exact ending

/-- After every run, the virtual calls on a receiver of a declared class search the handles of one
type.  That is the class itself if and only if no other type was imported under the name of the
class; it is whatever was imported under it, and always the class if its name has a dot. -/
theorem calls_own_class_iff {catalog : Catalog} {receiver : Value}
    (declared : catalog.hierarchy.contains receiver.typeName) (packages : List String)
    (order : TableOrder) (actions : List Action) :
    let start := fresh catalog packages order
    let registry := start.run actions
    ∃ target, registry.lookupType? receiver.typeName = some target ∧
      (∀ heap operation args, registry.CallsOn heap operation receiver args target) ∧
      (target = receiver.typeName ↔ ∀ index qualified, start.ImportsAt actions index qualified →
        shortName qualified = receiver.typeName → qualified = receiver.typeName) ∧
      (∀ index qualified, start.ImportsAt actions index qualified →
        shortName qualified = receiver.typeName → target = qualified) ∧
      ('.' ∈ receiver.typeName.toList → target = receiver.typeName) := by
  intro start registry
  have redirects (target : String) (found : registry.lookupType? receiver.typeName = some target)
      (index : Nat) (qualified : String) (imports : start.ImportsAt actions index qualified)
      (same : shortName qualified = receiver.typeName) : target = qualified := by
    have there := lookupType?_run_imported imports
    rw [same] at there
    exact Option.some.inj (found.symm.trans there)
  rcases lookupType?_run_declared declared packages order actions with
    ⟨index, target, imports, same, found⟩ | ⟨unimported, found⟩
  · refine ⟨target, found, callsOn_lookupType? found, ⟨?_, ?_⟩, redirects target found, ?_⟩
    · rintro own other qualified otherImports otherSame
      rw [← redirects target found other qualified otherImports otherSame, own]
    · intro only
      exact only index target imports same
    · intro dotted
      rw [← same] at dotted
      exact absurd dotted (dot_not_mem_shortName target)
  · refine ⟨receiver.typeName, found, callsOn_lookupType? found, ⟨?_, fun _ => rfl⟩,
      redirects _ found, fun _ => rfl⟩
    intro _ index qualified imports same
    exact absurd same (unimported index qualified imports)

/-- The speech of ducks. -/
def quack : Member := ⟨.method, ⟨[], false, none⟩, fun _ => return .str "quack"⟩

/-- There are ducks, which speak, and ducks of a zoo, which have nothing to do with them. -/
def farm : Catalog where
  hierarchy := ⟨[(TypeName.object, []), ("Duck", [TypeName.object]),
    ("zoo.Duck", [TypeName.object])]⟩
  members := [(⟨"Duck", some "speak"⟩, [quack])]

/-- The handle of the speech. -/
def speech : Handle :=
  ⟨"Duck", some "speak", .virtual, ⟨[], false, none⟩, ⟨[], false, none⟩, quack.run⟩

/-- A duck. -/
def donald : Value := .object ⟨0, "Duck"⟩

/-- The heap with the duck. -/
def nest : Heap := { states := [.text "Donald"] }

/-- Ducks can be told to speak. -/
def speaking : List Action := [.register .virtual "Duck" (some "speak") "()" none]

/-- The registry in which ducks can be told to speak, with these imports and discovered types. -/
def speakingWith (imports : Imports) (types : List DiscoveredType) : Registry :=
  { fresh farm [] .ofEntry with imports, discovery := ⟨types⟩, filings := [⟨"Duck", speech⟩] }

theorem run_speaking : (fresh farm [] .ofEntry).run speaking = speakingWith {} [⟨"Duck", []⟩] := by
  have found : (fresh farm [] .ofEntry).lookupType? "Duck" = some "Duck" := rfl
  have offered : member? farm .virtual "Duck" (some "speak") ⟨[], false, none⟩ = some quack := rfl
  exact (register_run (makeHandle_run found (fun _ => rfl) offered)).2

/-- The ducks of the zoo are discovered apart from the others. -/
theorem discover_zooDuck :
    Discovery.discover ⟨[⟨"Duck", []⟩]⟩ farm.hierarchy "zoo.Duck" =
      ⟨[⟨"Duck", []⟩, ⟨"zoo.Duck", []⟩]⟩ := by
  have root : farm.hierarchy.supertypes TypeName.object = [] := rfl
  have duck : farm.hierarchy.supertypes "Duck" = [TypeName.object] := rfl
  have zooDuck : farm.hierarchy.supertypes "zoo.Duck" = [TypeName.object] := rfl
  rw [TypeName.object] at *
  have above : farm.hierarchy.isAssignable "Duck" "zoo.Duck" = false := by
    simp [Hierarchy.isAssignable, Hierarchy.ancestors, Hierarchy.search, TypeName.object, root,
      duck]
  have below : farm.hierarchy.isAssignable "zoo.Duck" "Duck" = false := by
    simp [Hierarchy.isAssignable, Hierarchy.ancestors, Hierarchy.search, TypeName.object, root,
      zooDuck]
  simp [Discovery.discover, Discovery.contains, Discovery.names, above, below]

theorem run_speaking_import :
    (fresh farm [] .ofEntry).run (speaking ++ [.importType "zoo.Duck"]) =
      speakingWith ⟨[("Duck", "zoo.Duck")]⟩ [⟨"Duck", []⟩, ⟨"zoo.Duck", []⟩] := by
  have learnt : (speakingWith ⟨[("Duck", "zoo.Duck")]⟩ [⟨"Duck", []⟩]).learn "zoo.Duck" =
      speakingWith ⟨[("Duck", "zoo.Duck")]⟩ [⟨"Duck", []⟩, ⟨"zoo.Duck", []⟩] := by
    rw [learn]
    change ({ speakingWith ⟨[("Duck", "zoo.Duck")]⟩ [] with
      discovery := Discovery.discover ⟨[⟨"Duck", []⟩]⟩ farm.hierarchy "zoo.Duck" } : Registry) = _
    rw [discover_zooDuck]
    rfl
  rw [run_append, run_speaking]
  change (speakingWith ⟨[("Duck", "zoo.Duck")]⟩ [⟨"Duck", []⟩]).discover "zoo.Duck" = _
  rw [discover_eq (by decide), learnt]
  rfl

/-- After the import, calls on the duck search the handles of the ducks of the zoo. -/
theorem donald_calls_zooDuck :
    farm.hierarchy.contains donald.typeName ∧
      (fresh farm [] .ofEntry).ImportsAt (speaking ++ [.importType "zoo.Duck"]) 1 "zoo.Duck" ∧
      ∀ heap operation args,
        ((fresh farm [] .ofEntry).run (speaking ++ [.importType "zoo.Duck"])).CallsOn
        heap operation donald args "zoo.Duck" := by
  have imports :
      (fresh farm [] .ofEntry).ImportsAt (speaking ++ [.importType "zoo.Duck"]) 1 "zoo.Duck" := by
    refine ⟨rfl, ?_⟩
    change ((importType "zoo.Duck").run.run ((fresh farm [] .ofEntry).run speaking)).1 = _
    rw [run_speaking]
    rfl
  obtain ⟨target, -, calls, -, redirects, -⟩ :=
    @calls_own_class_iff farm donald rfl [] .ofEntry (speaking ++ [.importType "zoo.Duck"])
  obtain rfl : target = "zoo.Duck" := redirects 1 "zoo.Duck" imports rfl
  exact ⟨rfl, imports, calls⟩

/-- The import of an unrelated type takes the speech from a duck. -/
theorem donald_redirected :
    farm.hierarchy.contains donald.typeName ∧
      ((fresh farm [] .ofEntry).run speaking).invoke nest virtualOnly donald.typeName (some "speak")
          [donald] =
        ((.ok (.str "quack"), nest), (fresh farm [] .ofEntry).run speaking) ∧
      ((fresh farm [] .ofEntry).run (speaking ++ [.importType "zoo.Duck"])).lookupType?
        donald.typeName =
        some "zoo.Duck" ∧
      ((fresh farm [] .ofEntry).run (speaking ++ [.importType "zoo.Duck"])).invoke nest virtualOnly
          donald.typeName (some "speak") [donald] =
        ((.error (.noHandle "zoo.Duck" "speak"), nest),
          (fresh farm [] .ofEntry).run (speaking ++ [.importType "zoo.Duck"])) := by
  rw [run_speaking, run_speaking_import]
  exact ⟨rfl, rfl, rfl, rfl⟩

end Colloquy.Registry
