import Colloquy.Host.Arguments

/-!
# Annotations of the host

Constructors of the markers that documents attach to exchanges.
-/

namespace Colloquy.Host.Annotations

/-- A new check of the output. -/
def ofCheck (check : OutputCheck) : HostM Value := do
  let (value, heap) := (← get).allocateAnalyzer check
  set heap
  return value

/-- A line of information. -/
def makeInformation : Native := fun args => do
  return .marker (.information (← stringArgument args 0))

/-- A check that the output contains a text. -/
def makeContains : Native := fun args => do
  ofCheck (.contains (← stringArgument args 0))

/-- A check of the number of output lines. -/
def makeLineCount : Native := fun args => do
  let expected ← intArgument args 0
  if expected < 0 then throw ("negative line count " ++ toString expected)
  ofCheck (.lineCount expected.toNat)

/-- The constructors of markers. -/
def members : List MemberSpec :=
  [constructorSpec TypeName.information "(String)" makeInformation,
    constructorSpec TypeName.contains "(String)" makeContains,
    constructorSpec TypeName.lineCount "(int)" makeLineCount]

end Colloquy.Host.Annotations
