import Colloquy.Catalog.Basic
import Colloquy.Catalog.Discovery
import Colloquy.Catalog.Hierarchy
import Colloquy.Code.Evaluation
import Colloquy.Code.Lexer
import Colloquy.Code.Literal
import Colloquy.Code.Reducer
import Colloquy.Code.Scope
import Colloquy.Code.Token
import Colloquy.CommandLine
import Colloquy.Decimal.FloatText
import Colloquy.Decimal.Shortest
import Colloquy.Document.Basic
import Colloquy.Document.Block
import Colloquy.Document.Exchange
import Colloquy.Document.Line
import Colloquy.Error
import Colloquy.Host.Annotations
import Colloquy.Host.Arguments
import Colloquy.Host.Builder
import Colloquy.Host.Library
import Colloquy.Host.Lists
import Colloquy.Host.Numbers
import Colloquy.Host.Object
import Colloquy.Host.Strings
import Colloquy.Main
import Colloquy.Number.Basic
import Colloquy.Number.Binary
import Colloquy.Number.Floating
import Colloquy.Number.Kind
import Colloquy.Number.Reading
import Colloquy.Proofs.Catalog.Ancestors
import Colloquy.Proofs.Catalog.Arena
import Colloquy.Proofs.Catalog.Assignability
import Colloquy.Proofs.Catalog.BreadthFirst
import Colloquy.Proofs.Catalog.Coercion
import Colloquy.Proofs.Catalog.Definitions
import Colloquy.Proofs.Catalog.Dispatch
import Colloquy.Proofs.Catalog.Distance
import Colloquy.Proofs.Catalog.Inert
import Colloquy.Proofs.Catalog.Links
import Colloquy.Proofs.Catalog.Members
import Colloquy.Proofs.Catalog.Widening
import Colloquy.Proofs.Code.Assignment
import Colloquy.Proofs.Code.Brackets
import Colloquy.Proofs.Code.Coverage
import Colloquy.Proofs.Code.Declarations
import Colloquy.Proofs.Code.Expression
import Colloquy.Proofs.Code.Fallbacks
import Colloquy.Proofs.Code.Grammar
import Colloquy.Proofs.Code.Lexing
import Colloquy.Proofs.Code.LineByLine
import Colloquy.Proofs.Code.LineClosing
import Colloquy.Proofs.Code.LineEnds
import Colloquy.Proofs.Code.Location
import Colloquy.Proofs.Code.LongestMatch
import Colloquy.Proofs.Code.Nesting
import Colloquy.Proofs.Code.Operands
import Colloquy.Proofs.Code.Operations
import Colloquy.Proofs.Code.PlainLines
import Colloquy.Proofs.Code.Recording
import Colloquy.Proofs.Code.Reduction
import Colloquy.Proofs.Code.Rules
import Colloquy.Proofs.Code.Shape
import Colloquy.Proofs.Code.Soundness
import Colloquy.Proofs.Code.Statements
import Colloquy.Proofs.Document.Appending
import Colloquy.Proofs.Document.CodeLines
import Colloquy.Proofs.Document.Comments
import Colloquy.Proofs.Document.Conservation
import Colloquy.Proofs.Document.Files
import Colloquy.Proofs.Document.History
import Colloquy.Proofs.Document.Loading
import Colloquy.Proofs.Document.Normalization
import Colloquy.Proofs.Document.Numbering
import Colloquy.Proofs.Document.Printing
import Colloquy.Proofs.Document.Quoting
import Colloquy.Proofs.Document.References
import Colloquy.Proofs.Document.Safety
import Colloquy.Proofs.Document.Substitution
import Colloquy.Proofs.Document.Sums
import Colloquy.Proofs.Document.Tags
import Colloquy.Proofs.Document.Transcript
import Colloquy.Proofs.Host.Demands
import Colloquy.Proofs.Host.Failures
import Colloquy.Proofs.Host.Promises
import Colloquy.Proofs.Host.Separation
import Colloquy.Proofs.Number.Conversion
import Colloquy.Proofs.Number.Exact
import Colloquy.Proofs.Number.ExactConversion
import Colloquy.Proofs.Number.Literals
import Colloquy.Proofs.Number.Patterns
import Colloquy.Proofs.Number.Rounding
import Colloquy.Proofs.Number.Sums
import Colloquy.Proofs.Number.Wholes
import Colloquy.Proofs.Registry.Acceptance
import Colloquy.Proofs.Registry.Delivery
import Colloquy.Proofs.Registry.Filing
import Colloquy.Proofs.Registry.Grounding
import Colloquy.Proofs.Registry.Growth
import Colloquy.Proofs.Registry.History
import Colloquy.Proofs.Registry.Inheritance
import Colloquy.Proofs.Registry.Receivers
import Colloquy.Proofs.Registry.Rejection
import Colloquy.Proofs.Registry.Repetition
import Colloquy.Proofs.Registry.Representation
import Colloquy.Proofs.Registry.Safety
import Colloquy.Proofs.Registry.Search
import Colloquy.Proofs.Registry.Trial
import Colloquy.Proofs.Registry.TrialOrder
import Colloquy.Proofs.Signature.Printing
import Colloquy.Proofs.Signature.Reading
import Colloquy.Proofs.Signature.Resolution
import Colloquy.Proofs.Text.Cut
import Colloquy.Proofs.Text.Word
import Colloquy.Proofs.Value.Printing
import Colloquy.Registry.Basic
import Colloquy.Registry.Handle
import Colloquy.Registry.Imports
import Colloquy.Remaining
import Colloquy.Session
import Colloquy.Settings
import Colloquy.Signature.Basic
import Colloquy.Signature.TypeRef
import Colloquy.Table
import Colloquy.Text.Alphanumeric
import Colloquy.Text.Blank
import Colloquy.Text.Cut
import Colloquy.Text.LetterCase
import Colloquy.Text.LetterCase.Table
import Colloquy.Text.Word
import Colloquy.Value.Basic
import Colloquy.Value.Display
import Colloquy.Value.Heap
import Colloquy.Value.Marker
import Colloquy.Value.Sum
import Colloquy.Value.TypeName
