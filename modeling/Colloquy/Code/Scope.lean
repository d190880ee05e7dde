import Colloquy.Code.Token
import Colloquy.Error
import Colloquy.Value.Heap

/-!
# Scopes

Everything that code can reach outside its own line: variables, imports, declarations and calls.
A scope is given by what it does to a state, so that the order of effects can be observed.
-/

namespace Colloquy

/-- An effect on a state that may fail.  What it changed before a failure stays changed. -/
abbrev Effect (σ : Type) := ExceptT RuntimeError (StateM σ)

/-- What code can do to a state. -/
structure Scope (σ : Type) where
  /-- The heap in which values are printed. -/
  heap : σ → Heap
  /-- The value of a variable. -/
  lookup : σ → String → Option Value
  /-- Binds a variable. -/
  assign : String → Value → StateM σ Unit
  /-- Imports a type. -/
  importType : String → Effect σ Unit
  /-- Registers a constructor or an operation. -/
  declare : Declaration → Effect σ Unit
  /-- Makes an object of a type as it is written. -/
  construct : String → List Value → Effect σ Value
  /-- Calls an operation on a receiver. -/
  call : String → Value → List Value → Effect σ Value

end Colloquy
