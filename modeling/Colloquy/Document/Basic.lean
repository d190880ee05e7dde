import Colloquy.Code.Evaluation
import Colloquy.Document.Block
import Colloquy.Document.Exchange
import Colloquy.Host.Library
import Colloquy.Session
import Colloquy.Settings

/-!
# Documents

A document is loaded block by block: code runs in the session, files are stored, and interactions
become exchanges.  Loading stops at the first error and keeps what was done before.
-/

namespace Colloquy

/-- A loaded document. -/
structure Document where
  /-- What the code of the document works on. -/
  session : Session
  /-- The lines of the stored files by name. -/
  files : Table String (List String) := []
  /-- The exchanges in order. -/
  exchanges : List Exchange := []

namespace Document

/-- Loading may fail after it changed the document. -/
abbrev Loading := ExceptT Error (StateM Document)

/-- An empty document over a catalog. -/
def ofCatalog (catalog : Catalog) (settings : Settings) (order : TableOrder := .ofEntry) :
    Document :=
  { session := { registry := { catalog, packages := settings.packages, order } } }

/-- An empty document over the host library, if the settings have it, or over the value types. -/
def empty (settings : Settings) (order : TableOrder := .ofEntry) : Except Error Document :=
  if settings.hasLibrary then
    match Host.catalog with
    | .ok catalog => .ok (ofCatalog catalog settings order)
    | .error error => .error (.library error)
  else .ok (ofCatalog .ofValues settings order)

/-- Runs a line of code in the session. -/
def runCode (line : NumberedLine) : Loading Unit := do
  let document ← get
  let (result, session) :=
    (Evaluation.evaluate Session.scope line.text line.number).run document.session
  set { document with session }
  let _ ← (liftM result : Loading (Option Value))

/-- Runs lines of code in order. -/
def runLines : List NumberedLine → Loading Unit
  | [] => return ()
  | line :: rest => do
    runCode line
    runLines rest

/-- Stores the lines of a file block under the name in its tag. -/
def storeFile (args : Option String) (body : List NumberedLine) (line : Nat) : Loading Unit := do
  let name := args.elim "" Text.trimmed
  if name.isEmpty then throw (.parse (.missingFileName line))
  modify fun document =>
    { document with files := document.files.put name (body.map (·.text)) }

/-- Adds an exchange.  A document does not begin with input: an empty exchange comes before it. -/
def addExchange (exchange : Exchange) (document : Document) : Document :=
  let leading := if document.exchanges.isEmpty && exchange.carriesInput then [{}] else []
  { document with exchanges := document.exchanges ++ leading ++ [exchange] }

/-- Processes one block. -/
def process : Block → Loading Unit
  | .tagged id args body line =>
    if id = "file" then storeFile args body line
    else if id = "code" then runLines body
    else throw (.parse (.unknownBlock id line))
  | .code line => runCode line
  | .interaction lines => modify fun document =>
    document.addExchange <|
      .ofLines document.session.heap (document.session.bindings.get? ·) lines
  | .blank => return ()

/-- Processes blocks in order. -/
def processAll : List Block → Loading Unit
  | [] => return ()
  | block :: rest => do
    process block
    processAll rest

/-- Loads a source at the end of the document. -/
def load (source : String) : Loading Unit := do
  let (blocks, fault) := Block.scan (NumberedLine.ofSource source)
  processAll blocks
  if let some error := fault then throw (.parse error)

/-- The document of a source. -/
def ofSource (source : String) (settings : Settings) (order : TableOrder := .ofEntry) :
    Except Error Document := do
  let document ← empty settings order
  let (result, document) := (load source).run document
  result.map fun _ => document

/-- The lines of a stored file. -/
def file? (document : Document) (name : String) : Option (List String) := document.files.get? name

/-- The stored files in the order of their names. -/
def sortedFiles (document : Document) : List (String × List String) :=
  document.files.mergeSort fun first second => first.1 ≤ second.1

/-- The value of a variable. -/
def value? (document : Document) (name : String) : Option Value :=
  document.session.bindings.get? name

/-- The printed exchanges one after the other. -/
def transcript (document : Document) : String :=
  String.join (document.exchanges.map Exchange.text)

/-- The messages of all checks that an output fails. -/
def failures (document : Document) (output : List String) : List String :=
  document.exchanges.flatMap (·.failures output)

end Document

end Colloquy
