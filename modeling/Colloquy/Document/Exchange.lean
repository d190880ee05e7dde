import Colloquy.Document.Line
import Colloquy.Text.Word
import Colloquy.Value.Display

/-!
# Exchanges

What a program is expected to print and is given to read.  References to variables are replaced by
the printed forms of their values, and markers are attached instead of being printed.
-/

namespace Colloquy

/-- A line of an exchange. -/
inductive ExchangeLine where
  | output (text : String)
  | input (text : String)
deriving DecidableEq, Repr

namespace ExchangeLine

/-- The text of a line without the mark of input. -/
def text : ExchangeLine → String
  | output text => text
  | input text => text

/-- The program reads the line. -/
def isInput : ExchangeLine → Bool
  | output _ => false
  | input _ => true

/-- The printed form of a line. -/
def shown : ExchangeLine → String
  | output text => text
  | input text => "<< " ++ text

end ExchangeLine

/-- The lines of one interaction with the markers attached to it. -/
structure Exchange where
  /-- The lines in order. -/
  lines : List ExchangeLine := []
  /-- The markers in order. -/
  markers : List Marker := []

namespace Exchange

/-- The first line is input. -/
def carriesInput (exchange : Exchange) : Bool :=
  exchange.lines.head?.elim false ExchangeLine.isInput

/-- There are neither lines nor markers. -/
def isTrivial (exchange : Exchange) : Bool :=
  exchange.lines.isEmpty && exchange.markers.isEmpty

/-- The attached lines of information. -/
def information (exchange : Exchange) : List String :=
  exchange.markers.filterMap Marker.information?

/-- The attached checks. -/
def checks (exchange : Exchange) : List OutputCheck := exchange.markers.filterMap Marker.check?

/-- The messages of the checks that an output fails. -/
def failures (exchange : Exchange) (output : List String) : List String :=
  exchange.checks.filterMap fun check =>
    (check.fault? output).map fun reason => check.describe ++ ": " ++ reason

/-- The printed lines of an exchange: information, then the lines themselves, then the checks. -/
def shownLines (exchange : Exchange) : List String :=
  exchange.information.map ("# " ++ ·) ++ exchange.lines.map ExchangeLine.shown
    ++ exchange.checks.map ("~ " ++ ·.describe)

/-- The printed form of an exchange, each line with a line end. -/
def text (exchange : Exchange) : String :=
  String.join (exchange.shownLines.map (· ++ "\n"))

/-- A text without its references, and the markers that they were bound to. -/
structure Substituted where
  /-- The text. -/
  text : List Char := []
  /-- The markers in the order of their references. -/
  markers : List Marker := []

/-- Further text in front. -/
def Substituted.prepend (front : List Char) (rest : Substituted) : Substituted :=
  { rest with text := front ++ rest.text }

/-- A further marker in front. -/
def Substituted.attach (mark : Marker) (rest : Substituted) : Substituted :=
  { rest with markers := mark :: rest.markers }

/-- What a reference to a name stands for, in front of the rest. -/
def reference (heap : Heap) (lookup : String → Option Value) (name : List Char)
    (rest : Substituted) : Substituted :=
  match lookup (String.ofList name) with
  | some (.marker mark) => rest.attach mark
  | some value => rest.prepend (value.text heap).toList
  | none => rest.prepend ('$' :: name)

/-- The text with each reference to a bound name replaced.  Replacements are not looked at
again. -/
def substitute (heap : Heap) (lookup : String → Option Value) : List Char → Substituted
  | [] => {}
  | '$' :: c :: rest =>
    if Text.isNameStart c then
      reference heap lookup (c :: rest.takeWhile Text.isWordChar)
        (substitute heap lookup (rest.dropWhile Text.isWordChar))
    else (substitute heap lookup (c :: rest)).prepend ['$']
  | c :: rest => (substitute heap lookup rest).prepend [c]
termination_by text => text.length
decreasing_by
  · have := (List.dropWhile_suffix Text.isWordChar (l := rest)).length_le
    simp +arith
    omega
  · simp
  · simp

/-- The text of a line without the mark of input, and whether the mark was there.  One space behind
the mark belongs to it. -/
def splitInput : List Char → List Char × Bool
  | '<' :: '<' :: ' ' :: rest => (rest, true)
  | '<' :: '<' :: rest => (rest, true)
  | text => (text, false)

/-- The line, unless nothing but blanks is left of it after markers were taken out, and the
markers. -/
def ofLine (heap : Heap) (lookup : String → Option Value) (line : NumberedLine) :
    List ExchangeLine × List Marker :=
  let (body, isInput) := splitInput line.text.toList
  let substituted := substitute heap lookup body
  let text := String.ofList substituted.text
  if !substituted.markers.isEmpty && Text.allBlank substituted.text then
    ([], substituted.markers)
  else ([if isInput then .input text else .output text], substituted.markers)

/-- The exchange of the lines of an interaction. -/
def ofLines (heap : Heap) (lookup : String → Option Value) (lines : List NumberedLine) :
    Exchange :=
  let parts := lines.map (ofLine heap lookup)
  ⟨parts.flatMap Prod.fst, parts.flatMap Prod.snd⟩

end Exchange

end Colloquy
