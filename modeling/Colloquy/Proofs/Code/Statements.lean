import Colloquy.Proofs.Code.Assignment
import Colloquy.Proofs.Code.Brackets
import Colloquy.Proofs.Code.LineEnds

/-!
# Lines with statements

An import or a declaration stands at the start of its line: only other statements and blanks come
before it.  It takes effect at once, and what follows is reduced as a line of its own.
-/

namespace Colloquy

/-- The token is blank text. -/
def Token.IsBlank (token : Token) : Prop :=
  ∃ text, token.text? = some text ∧ Text.allBlank text.toList

namespace Reducer

variable {σ : Type} (scope : Scope σ) (line : Nat) {stack after : Stack}

/-- The effect of a statement; other tokens have none. -/
def perform : Token → Step σ Unit
  | .importType typeName => onLine line (scope.importType typeName)
  | .declaration declaration => onLine line (scope.declare declaration)
  | _ => return ()

theorem not_indented_waiting {frame : Frame} (waits : ∀ text, frame ≠ .literal text)
    (rest : Stack) : ¬ Indented [] (frame :: rest) := by
  rintro ⟨⟩
  exact waits _ rfl

theorem indented_of_append {gathered text : String} {rest : Stack}
    (indented : Indented [] (.literal (gathered ++ text) :: rest)) :
    Indented [] (.literal gathered :: rest) ∧ Text.allBlank text.toList := by
  cases indented with
  | blank isBlank =>
    have parts : Text.allBlank gathered.toList ∧ Text.allBlank text.toList := by
      simpa using isBlank
    exact ⟨.blank parts.1, parts.2⟩

/-- Only blanks were gathered where only blanks are pending. -/
theorem indented_of_pushText {text : String} (pushes : pushText line text stack = .ok after)
    (indented : Indented [] after) : Indented [] stack ∧ Text.allBlank text.toList := by
  unfold pushText at pushes
  split at pushes
  · cases pushes
    exact indented_of_append indented
  · cases pushes
  · cases pushes
    cases indented with
    | blank isBlank => exact ⟨.bare, isBlank⟩

theorem indented_of_pushSpace {text : String} (indented : Indented [] (pushSpace text stack)) :
    Indented [] stack ∧ Text.allBlank text.toList := by
  cases stack with
  | nil =>
    cases indented with
    | blank isBlank => exact ⟨.bare, isBlank⟩
  | cons frame rest =>
    cases frame with
    | literal gathered => exact indented_of_append indented
    | computed value => exact absurd indented (not_indented_waiting (by simp) rest)
    | call | construction | assignment | addition => cases indented

theorem indented_of_expectIdle {name : String} (idle : expectIdle name line stack = .ok after) :
    Indented [] stack ∧ after = [] := by
  unfold expectIdle at idle
  cases free : expectNoOperand name line stack with
  | error error =>
    rw [free] at idle
    cases idle
  | ok rest =>
    rw [free] at idle
    cases rest with
    | cons frame rest => cases idle
    | nil =>
      cases idle
      refine ⟨?_, rfl⟩
      unfold expectNoOperand at free
      split at free
      · rename_i text rest
        split at free
        · rename_i isBlank
          cases free
          exact .blank isBlank
        · cases free
      · cases free
      · cases free
        exact .bare

/-- A token of structure leaves something pending. -/
theorem gives_structure {token : Token} (shaped : stack.Shaped) (noText : token.text? = none)
    (noStatement : token.statement? = none) (inLine : token ≠ .newLine) :
    Gives (fun after => ¬ Indented [] after) (shift scope line token stack) := by
  have marks {text : String} (solid : Text.allBlank text.toList = false) (stack : Stack) :
      Gives (fun after => ¬ Indented [] after) (liftM (pushText line text stack) : Step σ Stack) :=
    gives_lift fun after pushes indented => by
      simpa [solid] using (indented_of_pushText line pushes indented).2
  have waits {frame : Frame} (noLiteral : ∀ text, frame ≠ .literal text) (rest : Stack) :
      Gives (fun after => ¬ Indented [] after) (pure (frame :: rest) : Step σ Stack) :=
    gives_pure (not_indented_waiting noLiteral rest)
  cases token with
  | word | char | quoted | space => cases noText
  | importType | declaration => cases noStatement
  | newLine => exact absurd rfl inLine
  | assign name => exact gives_bind (gives_any _) fun rest _ => waits (by simp) rest
  | new typeName => exact gives_bind (gives_any _) fun rest _ => waits (by simp) rest
  | call operation =>
    refine gives_get fun state => ?_
    cases takeOperand (scope.lookup state) stack with
    | mk operand rest =>
      cases operand with
      | none => exact gives_throw _
      | some receiver => exact waits (by simp) rest
  | plus =>
    refine gives_get fun state => ?_
    cases takeOperand (scope.lookup state) stack with
    | mk operand rest =>
      cases operand with
      | none => exact marks (by decide +kernel) rest
      | some left => exact gives_bind (gives_any _) fun result _ => waits (by simp) result.2
  | comma =>
    change Gives _ (comma scope line stack)
    cases within : inCall stack with
    | false =>
      rw [comma, within]
      exact marks (by decide +kernel) stack
    | true =>
      obtain ⟨above, call, below, innermost, noAssignment⟩ := innermost_of_inCall within
      rw [comma_innermost scope line shaped innermost noAssignment]
      refine gives_bind (gives_any _) fun arg _ => ?_
      cases arg with
      | none => exact gives_throw _
      | some arg =>
        refine waits (fun text same => ?_) below
        have isCall := innermost.isCall
        cases call with
        | call | construction => cases same
        | literal | computed | assignment | addition => cases isCall
  | close =>
    change Gives _ (close scope line stack)
    cases within : inCall stack with
    | false =>
      rw [close, within]
      exact marks (by decide +kernel) stack
    | true =>
      obtain ⟨above, call, below, innermost, noAssignment⟩ := innermost_of_inCall within
      rw [close_innermost scope line shaped innermost noAssignment]
      refine gives_bind (gives_any _) fun arg _ => ?_
      exact gives_bind (gives_any _) fun value _ => waits (by simp) below

/-- A statement leaves nothing pending. -/
theorem gives_statement {token : Token} (states : token.statement?.isSome) :
    Gives (· = []) (shift scope line token stack) := by
  have empties (name : String) (effect : Effect σ Unit) :
      Gives (· = []) ((liftM (expectIdle name line stack) : Step σ Stack) >>= fun rest =>
        onLine line effect >>= fun _ => pure rest) := by
    have idle : Gives (· = []) (liftM (expectIdle name line stack) : Step σ Stack) :=
      gives_lift fun rest idle => (indented_of_expectIdle line idle).2
    exact gives_bind idle fun rest empty => gives_bind (gives_any _) fun _ _ => gives_pure empty
  cases token with
  | importType | declaration => exact empties _ _
  | _ => cases states

theorem run_lift_ok {α : Type} {outcome : Except Error α} {state now : σ} {result : α}
    (runs : (liftM outcome : Step σ α).run.run state = (.ok result, now)) :
    outcome = .ok result ∧ now = state := by
  cases outcome with
  | error error => cases runs
  | ok value =>
    cases runs
    exact ⟨rfl, rfl⟩

/-- Where only blanks are pending behind a token, only blanks were pending before it, and it is
blank itself or a statement, whose effect is all that happened. -/
theorem idle_of_shift {token : Token} {state now : σ} (shaped : stack.Shaped)
    (inLine : token ≠ .newLine)
    (shifts : (shift scope line token stack).run.run state = (.ok after, now))
    (indented : Indented [] after) :
    Indented [] stack ∧ (token.statement?.isSome ∨ token.IsBlank) ∧
      (perform scope line token).run.run state = (.ok (), now) := by
  have texts {text : String} (isText : token.text? = some text)
      (pushes : (liftM (pushText line text stack) : Step σ Stack).run.run state =
        (.ok after, now)) :
      Indented [] stack ∧ token.IsBlank ∧ now = state := by
    obtain ⟨pushed, same⟩ := run_lift_ok pushes
    obtain ⟨before, isBlank⟩ := indented_of_pushText line pushed indented
    exact ⟨before, ⟨text, isText, isBlank⟩, same⟩
  have states {name : String} {effect : Effect σ Unit}
      (runs : ((liftM (expectIdle name line stack) : Step σ Stack) >>= fun rest =>
        onLine line effect >>= fun _ => pure rest).run.run state = (.ok after, now)) :
      Indented [] stack ∧ (onLine line effect).run.run state = (.ok (), now) := by
    obtain ⟨rest, middle, idles, performs⟩ := run_bind_ok runs
    obtain ⟨idle, rfl⟩ := run_lift_ok idles
    obtain ⟨done, later, effects, ends⟩ := run_bind_ok performs
    cases ends
    exact ⟨(indented_of_expectIdle line idle).1, effects⟩
  have structural (noText : token.text? = none) (noStatement : token.statement? = none) :
      Indented [] stack ∧ (token.statement?.isSome ∨ token.IsBlank) ∧
        (perform scope line token).run.run state = (.ok (), now) :=
    absurd indented
      (gives_structure scope line shaped noText noStatement inLine state now after shifts)
  cases token with
  | word text | char text | quoted text =>
    obtain ⟨before, isBlank, rfl⟩ := texts rfl shifts
    exact ⟨before, .inr isBlank, rfl⟩
  | space text =>
    cases shifts
    obtain ⟨before, isBlank⟩ := indented_of_pushSpace indented
    exact ⟨before, .inr ⟨text, rfl, isBlank⟩, rfl⟩
  | importType typeName =>
    obtain ⟨before, effects⟩ := states shifts
    exact ⟨before, .inl rfl, effects⟩
  | declaration declaration =>
    obtain ⟨before, effects⟩ := states shifts
    exact ⟨before, .inl rfl, effects⟩
  | plus | comma | close | assign | new | call => exact structural rfl rfl
  | newLine => exact absurd rfl inLine

/-- Where only blanks are pending behind tokens, all of them are blanks and statements, and the
effects of the statements, in their order, are all that happened. -/
theorem idle_of_shiftAll {tokens : List Token} {state now : σ} (shaped : stack.Shaped)
    (inLine : .newLine ∉ tokens)
    (shifts : (shiftAll scope line tokens stack).run.run state = (.ok after, now))
    (indented : Indented [] after) :
    Indented [] stack ∧ (∀ token ∈ tokens, token.statement?.isSome ∨ token.IsBlank) ∧
      (forM tokens (perform scope line)).run.run state = (.ok (), now) := by
  -- that nothing is pending is known behind the last token, and carried back to the first
  induction tokens generalizing stack state with
  | nil =>
    cases shifts
    exact ⟨indented, List.forall_mem_nil _, rfl⟩
  | cons token tokens ih =>
    obtain ⟨middle, between, first, others⟩ := run_bind_ok shifts
    have still := gives_shift scope line token shaped state between middle first
    obtain ⟨reached, idle, performed⟩ := ih still (fun member => inLine (.tail _ member)) others
    have goesOn : token ≠ .newLine := fun ends => inLine (ends ▸ .head _)
    obtain ⟨before, here, effect⟩ := idle_of_shift scope line shaped goesOn first reached
    refine ⟨before, List.forall_mem_cons.2 ⟨here, idle⟩, ?_⟩
    rw [List.forM_cons, run_bind_of_ok effect]
    exact performed

/-- A statement comes behind statements and blanks only.  The statements take effect in their order,
and what follows is reduced as a line of its own. -/
theorem statements_of_reduces {front rest : List Token} {statement : Token} {state now : σ}
    {value : Option Value} (inLine : .newLine ∉ front ++ statement :: rest)
    (states : statement.statement?.isSome)
    (reduces : (reduceLine scope line (front ++ statement :: rest)).run.run state =
      (.ok value, now)) :
    (∀ token ∈ front, token.statement?.isSome ∨ token.IsBlank) ∧
      ∃ middle, (forM (front ++ [statement]) (perform scope line)).run.run state =
          (.ok (), middle) ∧
        (reduceLine scope line rest).run.run middle = (.ok value, now) := by
  have parts : front ++ statement :: rest = (front ++ [statement]) ++ rest := by simp
  rw [parts] at inLine
  rw [reduceLine, parts, shiftAll_append, bind_assoc] at reduces
  obtain ⟨stack, middle, shifts, reduces⟩ := run_bind_ok reduces
  have empties : Gives (· = []) (shiftAll scope line (front ++ [statement]) []) := by
    rw [shiftAll_append]
    refine gives_bind (gives_any _) fun stack _ => ?_
    rw [shiftAll_singleton]
    exact gives_statement scope line states
  obtain rfl := empties state middle stack shifts
  have first : .newLine ∉ front ++ [statement] := fun ends => inLine (List.mem_append_left _ ends)
  obtain ⟨-, idle, performed⟩ := idle_of_shiftAll scope line Stack.shaped_nil first shifts .bare
  exact ⟨fun token member => idle token (List.mem_append_left _ member), middle, performed, reduces⟩

end Reducer

namespace Evaluation

open Reducer (perform reduceLine idleScope statements_of_reduces)

variable {σ : Type} (scope : Scope σ) (line : Nat)

/-- Code that is evaluated without an error has a token for each stretch. -/
theorem tokens_of_run {lexemes : List Lexeme} {stack : Stack} {last value : Option Value}
    {state now : σ} (inLine : ∀ lexeme ∈ lexemes, lexeme.token? ≠ some .newLine)
    (runs : (run scope line stack last lexemes).run.run state = (.ok value, now)) :
    ∃ tokens : List Token, lexemes.map (·.token?) = tokens.map some ∧ .newLine ∉ tokens := by
  induction lexemes generalizing stack state with
  | nil => exact ⟨[], rfl, List.not_mem_nil⟩
  | cons lexeme lexemes ih =>
    have here := inLine lexeme (.head _)
    rw [run] at runs
    split at runs
    · cases runs
    · rename_i ends
      exact absurd ends here
    · rename_i token _ found
      obtain ⟨after, middle, -, later⟩ := run_bind_ok runs
      obtain ⟨tokens, lexed, apart⟩ := ih (fun other member => inLine other (.tail _ member)) later
      refine ⟨token :: tokens, by rw [List.map_cons, found, lexed, List.map_cons], ?_⟩
      rintro (_ | ⟨_, member⟩)
      · exact here found
      · exact apart member

/-- A line that is evaluated without an error has its statements at its start: what comes before one
of them is a statement or blank.  The statements take effect in their order, and what follows them
is reduced as a line of its own. -/
theorem evaluate_statements {source : String} {state now : σ} {value : Option Value}
    (inLine : '\n' ∉ source.toList)
    (evaluates : (evaluate scope source line).run.run state = (.ok value, now)) :
    ∃ tokens : List Token, Lexer.tokens source.toList = tokens.map some ∧
      ∀ front statement rest, tokens = front ++ statement :: rest →
        statement.statement?.isSome →
        (∀ token ∈ front, token.statement?.isSome ∨ token.IsBlank) ∧
          ∃ middle, (forM (front ++ [statement]) (perform scope line)).run.run state =
              (.ok (), middle) ∧
            (reduceLine scope line rest).run.run middle = (.ok value, now) := by
  obtain ⟨tokens, lexed, apart⟩ :=
    tokens_of_run scope line (Lexer.lexemes_inLine inLine) evaluates
  refine ⟨tokens, lexed, ?_⟩
  rintro front statement rest rfl states
  rw [evaluate_of_tokens scope line lexed apart] at evaluates
  exact statements_of_reduces scope line apart states evaluates

/-- The line `import zoo.Duck static Duck.make() new Duck(` has two statements at its start. -/
theorem evaluate_import_and_declaration :
    let source := "import zoo.Duck static Duck.make() new Duck("
    '\n' ∉ source.toList ∧
      (evaluate idleScope source 1).run.run () = (.ok (some .null), ()) ∧
      ∃ tokens : List Token, Lexer.tokens source.toList = tokens.map some ∧
        ∀ front statement rest, tokens = front ++ statement :: rest →
          statement.statement?.isSome →
          (∀ token ∈ front, token.statement?.isSome ∨ token.IsBlank) ∧
            ∃ middle, (forM (front ++ [statement]) (perform idleScope 1)).run.run () =
                (.ok (), middle) ∧
              (reduceLine idleScope 1 rest).run.run middle = (.ok (some .null), ()) := by
  intro source
  have inLine : '\n' ∉ source.toList := by decide
  have lexed : Lexer.tokens source.toList =
      [Token.importType "zoo.Duck", .space " ",
        .declaration ⟨.static, "Duck", some "make", "()", none⟩, .space " ", .new "Duck"].map
          some := by
    decide +kernel
  have evaluates : (evaluate idleScope source 1).run.run () = (.ok (some .null), ()) := by
    rw [evaluate_of_tokens idleScope 1 lexed (by decide)]
    rfl
  exact ⟨inLine, evaluates, evaluate_statements idleScope 1 inLine evaluates⟩

/-- Behind a statement the line may go on with anything: `import zoo.Duck d = new Duck()` imports,
constructs and assigns. -/
theorem evaluate_behind_import :
    let source := "import zoo.Duck d = new Duck()"
    Lexer.tokens source.toList =
        [Token.importType "zoo.Duck", .space " ", .assign "d", .space " ", .new "Duck", .close].map
          some ∧
      (evaluate idleScope.recording source 1).run.run ((), []) =
        (.ok (some .null),
          ((), [.importType "zoo.Duck", .construct "Duck", .assign "d"])) := by
  intro source
  have lexed : Lexer.tokens source.toList =
      [Token.importType "zoo.Duck", .space " ", .assign "d", .space " ", .new "Duck", .close].map
        some := by
    decide +kernel
  refine ⟨lexed, ?_⟩
  rw [evaluate_of_tokens idleScope.recording 1 lexed (by decide)]
  rfl

end Evaluation

end Colloquy
