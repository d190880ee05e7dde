/-!
# Errors

What may go wrong while a document is scanned, its code is reduced, and its calls are made.  Each
error names its cause; the wording is given once, by `message`.
-/

namespace Colloquy

/-- Why the text of a signature is rejected.  Parameters are counted from one. -/
inductive SignatureFault where
  | unclosed
  | trailing (text : String)
  | unresolved (name : String)
  | variadicBeforeLast
  | emptyParameter (position : Nat)
  | otherArity (expected : Nat) (declared : String)
deriving DecidableEq, Repr

/-- The reason as it is worded inside a message. -/
def SignatureFault.reason : SignatureFault → String
  | unclosed => "missing ')'"
  | trailing text => "unexpected '" ++ text ++ "'"
  | unresolved name => "cannot resolve type '" ++ name ++ "'"
  | variadicBeforeLast => "only the last parameter may be variadic"
  | emptyParameter position => "parameter " ++ toString position ++ " is empty"
  | otherArity expected declared =>
    "expected " ++ toString expected ++ " parameters to match " ++ declared

/-- An error of an import, a registration, a call or a sum.  There is no handle where none was ever
registered, and no matching overload where every handle rejected the arguments. -/
inductive RuntimeError where
  | ambiguousImport (name existing requested : String)
  | unresolvableType (name : String)
  | malformedSignature (signature : String) (fault : SignatureFault)
  | noSuchMember (typeName member signature : String)
  | noHandle (typeName operation : String)
  | noMatchingOverload (typeName operation argumentTypes : String)
  | overflow (left right : String)
deriving DecidableEq, Repr

/-- The wording of a runtime error. -/
def RuntimeError.message : RuntimeError → String
  | ambiguousImport name existing requested =>
    "Ambiguous import: '" ++ name ++ "' already refers to '" ++ existing ++ "', cannot import '"
      ++ requested ++ "'."
  | unresolvableType name => "Unresolvable type '" ++ name ++ "'."
  | malformedSignature signature fault =>
    "Malformed signature '" ++ signature ++ "': " ++ fault.reason ++ "."
  | noSuchMember typeName member signature =>
    "No such member: " ++ typeName ++ "." ++ member ++ signature ++ "."
  | noHandle typeName operation =>
    "No handle registered for " ++ typeName ++ "." ++ operation ++ "."
  | noMatchingOverload typeName operation argumentTypes =>
    "Cannot invoke " ++ typeName ++ "." ++ operation ++ " with arguments (" ++ argumentTypes
      ++ ")."
  | overflow left right =>
    "Integer overflow while computing " ++ left ++ " + " ++ right ++ "."

/-- An error in the text of a document, with the line it was found on. -/
inductive ParseError where
  | unexpectedToken (token : String) (line : Nat)
  | unknownBlock (id : String) (line : Nat)
  | unterminatedBlock (id : String) (line : Nat)
  | missingFileName (line : Nat)
  | missingValue (line : Nat)
  | emptyArgument (line : Nat)
deriving DecidableEq, Repr

/-- A text behind the line that it is about. -/
def located (line : Nat) (text : String) : String :=
  "Error on line " ++ toString line ++ ": " ++ text

/-- The wording of a parse error. -/
def ParseError.message : ParseError → String
  | unexpectedToken token line => located line ("Unexpected token: " ++ token ++ ".")
  | unknownBlock id line => located line ("Unknown block identifier '" ++ id ++ "'.")
  | unterminatedBlock id line =>
    located line ("Block '" ++ id ++ "' is never closed. Expected '</" ++ id ++ ">'.")
  | missingFileName line =>
    located line "File block requires a name. Example: <file=input.txt>"
  | missingValue line => located line "Value missing."
  | emptyArgument line => located line "Empty argument in argument list."

/-- An error that ends the loading of a document. -/
inductive Error where
  | parse (error : ParseError)
  | runtime (line : Nat) (error : RuntimeError)
  | library (error : RuntimeError)
  | unreadable (path reason : String)
deriving DecidableEq, Repr

namespace Error

/-- The wording of an error. -/
def message : Error → String
  | parse error => error.message
  | runtime line error => located line error.message
  | library error => "Failed to install the host library: " ++ error.message
  | unreadable path reason => "Failed to read '" ++ path ++ "': " ++ reason

/-- The runtime error inside an error, if a statement failed. -/
def runtime? : Error → Option RuntimeError
  | runtime _ error => some error
  | _ => none

end Error

end Colloquy
