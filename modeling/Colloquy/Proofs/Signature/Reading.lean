import Colloquy.Signature.Basic

/-!
# Reading signatures

What reading a signature leaves in the memory of its resolver, and what the signature that was read
looks like.  Reading reaches the memory through the resolver only, so it keeps whatever the resolver
keeps; and only an array is ever read as a variadic parameter.
-/

namespace Colloquy

variable {memory α β ε : Type}

/-- The step keeps a property of the memory, whatever it returns. -/
def Keeps (holds : memory → Prop) (step : StateM memory α) : Prop :=
  ∀ before, holds before → holds (step.run before).2

/-- The step returns only results with a property, if it does not fail. -/
def Gives (good : α → Prop) (step : ExceptT ε (StateM memory) α) : Prop :=
  ∀ before after result, step.run.run before = (.ok result, after) → good result

/-- A property that every returned result has, and that a chain of steps has if each step does. -/
structure Compositional (good : (α : Type) → StateM memory α → Prop) : Prop where
  pure : ∀ {α : Type} (result : α), good α (pure result)
  bind : ∀ {α β : Type} {step : StateM memory α} {next : α → StateM memory β},
    good α step → (∀ result, good β (next result)) → good β (step >>= next)

namespace Compositional

variable {good : (α : Type) → StateM memory α → Prop}

theorem map (compositional : Compositional good) {step : StateM memory α} (first : good α step)
    (change : α → β) : good β (change <$> step) := by
  rw [map_eq_pure_bind]
  exact compositional.bind first fun result => compositional.pure (change result)

theorem run_bind (compositional : Compositional good) {step : ExceptT ε (StateM memory) α}
    {next : α → ExceptT ε (StateM memory) β} (first : good _ step.run)
    (second : ∀ result, good _ (next result).run) : good _ (step >>= next).run := by
  rw [ExceptT.run_bind]
  refine compositional.bind first fun result => ?_
  cases result with
  | error error => exact compositional.pure _
  | ok result => exact second result

end Compositional

theorem compositional_keeps (holds : memory → Prop) :
    Compositional fun α => Keeps (α := α) holds where
  pure _ _ kept := kept
  bind first second before kept := second _ _ (first before kept)

/-- A chain of steps succeeds only if each of them does. -/
theorem run_bind_ok {step : ExceptT ε (StateM memory) α}
    {next : α → ExceptT ε (StateM memory) β} {before after : memory} {result : β}
    (success : (step >>= next).run.run before = (.ok result, after)) :
    ∃ value middle, step.run.run before = (.ok value, middle) ∧
      (next value).run.run middle = (.ok result, after) := by
  rw [ExceptT.run_bind, StateT.run_bind] at success
  cases outcome : step.run.run before with
  | mk value middle =>
    rw [outcome] at success
    cases value with
    | error error => cases success
    | ok value => exact ⟨value, middle, rfl, success⟩

/-- A step that reads the memory first works on the memory that it reads. -/
theorem run_get_bind (next : memory → ExceptT ε (StateM memory) α) (state : memory) :
    (get >>= next).run.run state = (next state).run.run state :=
  rfl

theorem gives_pure {good : α → Prop} {result : α} (fine : good result) :
    Gives good (pure result : ExceptT ε (StateM memory) α) := by
  intro before after other success
  cases success
  exact fine

theorem gives_throw {good : α → Prop} (error : ε) :
    Gives good (throw error : ExceptT ε (StateM memory) α) := by
  intro before after other success
  cases success

theorem gives_bind {good : α → Prop} {better : β → Prop} {step : ExceptT ε (StateM memory) α}
    {next : α → ExceptT ε (StateM memory) β} (first : Gives good step)
    (second : ∀ value, good value → Gives better (next value)) : Gives better (step >>= next) := by
  intro before after result success
  obtain ⟨value, middle, firstRun, secondRun⟩ := run_bind_ok success
  exact second value (first _ _ _ firstRun) _ _ _ secondRun

theorem gives_any (step : ExceptT ε (StateM memory) α) : Gives (fun _ => True) step :=
  fun _ _ _ _ => trivial

namespace Signature

section Memory

variable {good : (α : Type) → StateM memory α → Prop} (compositional : Compositional good)
  {resolve : Resolver memory} (resolving : ∀ name, good _ (resolve name))

include compositional resolving

theorem good_ofName? (name : List Char) : good _ (TypeRef.ofName? resolve name) := by
  rw [TypeRef.ofName?]
  split
  · exact compositional.pure _
  · dsimp only
    split
    · exact compositional.pure _
    · exact compositional.bind (resolving _) fun _ => compositional.pure _

theorem good_parseType (text name : List Char) : good _ (parseType resolve text name).run := by
  rw [parseType]
  have typed : good _ (TypeRef.parse? resolve text) :=
    compositional.bind (good_ofName? compositional resolving _) fun _ => compositional.pure _
  refine compositional.run_bind (compositional.map typed Except.ok) fun found => ?_
  cases found with
  | none => exact compositional.pure _
  | some type => exact compositional.pure _

theorem good_parseParams (position : Nat) (parts : List (List Char)) :
    good _ (parseParams resolve position parts).run := by
  induction parts generalizing position with
  | nil => exact compositional.pure _
  | cons part parts ih =>
    rw [parseParams]
    dsimp only
    split
    · exact compositional.pure _
    · refine compositional.run_bind (good_parseType compositional resolving _ _) fun type => ?_
      split
      · split
        · exact compositional.pure _
        · exact compositional.pure _
      · exact compositional.run_bind (ih _) fun _ => compositional.pure _

theorem good_parseList (list : List Char) : good _ (parseList resolve list).run := by
  rw [parseList]
  split
  · exact compositional.pure _
  · exact good_parseParams compositional resolving _ _

theorem good_parseReturns (text : List Char) : good _ (parseReturns resolve text).run := by
  unfold parseReturns
  split
  · exact compositional.pure _
  · exact compositional.run_bind (good_parseType compositional resolving _ _) fun _ =>
      compositional.pure _
  · exact compositional.pure _

theorem good_parseTrimmed (text : List Char) : good _ (parseTrimmed resolve text).run := by
  unfold parseTrimmed
  split
  · split
    · exact compositional.pure _
    · refine compositional.run_bind (good_parseReturns compositional resolving _) fun returns => ?_
      exact compositional.run_bind (good_parseList compositional resolving _) fun _ =>
        compositional.pure _
  · exact compositional.run_bind (good_parseList compositional resolving _) fun _ =>
      compositional.pure _

/-- Reading a signature is good if resolving a name is. -/
theorem good_parse (text : String) : good _ (parse resolve text).run :=
  compositional.map (good_parseTrimmed compositional resolving _) _

end Memory

/-- A variadic list has a last parameter, which is an array. -/
def Spread (params : List TypeRef) (variadic : Bool) : Prop :=
  variadic → ∃ element, params.getLast? = some (.array element)

theorem gives_parseParams (resolve : Resolver memory) (position : Nat)
    (parts : List (List Char)) :
    Gives (fun read => Spread read.1 read.2) (parseParams resolve position parts) := by
  induction parts generalizing position with
  | nil => exact gives_pure fun variadic => by cases variadic
  | cons part parts ih =>
    rw [parseParams]
    dsimp only
    split
    · exact gives_throw _
    · refine gives_bind (gives_any _) fun type _ => ?_
      split
      · split
        · exact gives_pure fun _ => ⟨type, rfl⟩
        · exact gives_throw _
      · refine gives_bind (ih _) fun read spread => gives_pure fun variadic => ?_
        obtain ⟨element, last⟩ := spread variadic
        exact ⟨element, by simp [List.getLast?_cons, last]⟩

theorem gives_parseList (resolve : Resolver memory) (list : List Char) :
    Gives (fun read => Spread read.1 read.2) (parseList resolve list) := by
  rw [parseList]
  split
  · exact gives_pure fun variadic => by cases variadic
  · exact gives_parseParams _ _ _

theorem gives_parseTrimmed (resolve : Resolver memory) (text : List Char) :
    Gives (fun signature => Spread signature.params signature.variadic)
      (parseTrimmed resolve text) := by
  unfold parseTrimmed
  split
  · split
    · exact gives_throw _
    · refine gives_bind (gives_any _) fun returns _ => ?_
      exact gives_bind (gives_parseList _ _) fun read spread => gives_pure spread
  · exact gives_bind (gives_parseList _ _) fun read spread => gives_pure spread

/-- A signature is read from the text between the blanks. -/
theorem run_parse_ok_iff {resolve : Resolver memory} {text : String} {before after : memory}
    {signature : Signature} :
    (parse resolve text).run.run before = (.ok signature, after) ↔
      (parseTrimmed resolve (Text.trim text.toList)).run.run before = (.ok signature, after) := by
  change Prod.map (Except.mapError (RuntimeError.malformedSignature text)) id
    ((parseTrimmed resolve (Text.trim text.toList)).run.run before) = _ ↔ _
  cases (parseTrimmed resolve (Text.trim text.toList)).run.run before with
  | mk read middle =>
    cases read with
    | error fault => constructor <;> rintro ⟨⟩
    | ok read => constructor <;> rintro ⟨⟩ <;> rfl

/-- The last parameter of a variadic signature that was read is an array. -/
theorem gives_parse (resolve : Resolver memory) (text : String) :
    Gives (fun signature => Spread signature.params signature.variadic) (parse resolve text) :=
  fun _ _ _ success => gives_parseTrimmed _ _ _ _ _ (run_parse_ok_iff.1 success)

end Signature

end Colloquy
