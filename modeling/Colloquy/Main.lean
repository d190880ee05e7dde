import Colloquy.CommandLine

/-!
# The program

Reads files for the command line and prints its outcome.
-/

namespace Colloquy.CommandLine

/-- Reads a file as text. -/
def readText (path : String) : IO (Except ReadFault String) := do
  try
    let bytes ← IO.FS.readBinFile path
    match String.fromUTF8? bytes with
    | some text => return .ok text
    | none => return .error .notText
  catch
    | .noFileOrDirectory .. => return .error .missing
    | error => return .error (.other (toString error))

end Colloquy.CommandLine

/-- The program itself. -/
def main (arguments : List String) : IO UInt32 := do
  let outcome ← Colloquy.CommandLine.run Colloquy.CommandLine.readText arguments
  IO.print outcome.output
  IO.eprint outcome.errors
  return UInt32.ofNat outcome.code
