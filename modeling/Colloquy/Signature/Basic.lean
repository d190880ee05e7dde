import Colloquy.Error
import Colloquy.Signature.TypeRef
import Colloquy.Text.Cut

/-!
# Signatures

A parameter list with an optional return type, written `(A, B...): R`.  The brackets may be left
out, and three dots make the last parameter variadic.
-/

namespace Colloquy

/-- The parameters and the result of a call.  A variadic last parameter is an array whose elements
may be given one by one. -/
structure Signature where
  /-- The types of the parameters. -/
  params : List TypeRef
  /-- The last parameter is variadic. -/
  variadic : Bool
  /-- The type of the result, if it is given. -/
  returns : Option TypeRef
deriving DecidableEq, Repr

namespace Signature

/-- The number of parameters. -/
def arity (signature : Signature) : Nat := signature.params.length

/-- Two signatures take the same parameters; their results may differ. -/
def sameParams (left right : Signature) : Bool :=
  left.params = right.params && left.variadic = right.variadic

/-- The texts of parameters, a variadic last one with three dots. -/
def paramTexts (variadic : Bool) : List TypeRef → List String
  | [] => []
  | [.array element] =>
    [if variadic then element.text ++ "..." else (TypeRef.array element).text]
  | param :: rest => param.text :: paramTexts variadic rest

/-- The canonical text of a signature. -/
def text (signature : Signature) : String :=
  let params := "(" ++ ", ".intercalate (paramTexts signature.variadic signature.params) ++ ")"
  match signature.returns with
  | some returns => params ++ ": " ++ returns.text
  | none => params

variable {memory : Type}

/-- The text of a parameter without three dots at its end, and whether they were there. -/
def splitVariadic (part : List Char) : List Char × Bool :=
  match ['.', '.', '.'].isPrefixOf? part.reverse with
  | some reversed => (reversed.reverse, true)
  | none => (part, false)

/-- The type of a text, or the fault that it cannot be resolved under a name. -/
def parseType (resolve : Resolver memory) (text name : List Char) :
    ExceptT SignatureFault (StateM memory) TypeRef := do
  match ← TypeRef.parse? resolve text with
  | some type => return type
  | none => throw (.unresolved (String.ofList name))

/-- The types of written parameters from a position on, and whether the last one is variadic. -/
def parseParams (resolve : Resolver memory) (position : Nat) :
    List (List Char) → ExceptT SignatureFault (StateM memory) (List TypeRef × Bool)
  | [] => return ([], false)
  | part :: rest => do
    let (name, variadic) := splitVariadic part
    if name.isEmpty then throw (.emptyParameter position)
    let type ← parseType resolve name name
    if variadic then
      if rest.isEmpty then return ([.array type], true) else throw .variadicBeforeLast
    else
      let (types, variadic) ← parseParams resolve (position + 1) rest
      return (type :: types, variadic)

/-- The types between the brackets of a signature. -/
def parseList (resolve : Resolver memory) (list : List Char) :
    ExceptT SignatureFault (StateM memory) (List TypeRef × Bool) :=
  if Text.allBlank list then return ([], false)
  else parseParams resolve 1 ((list.splitOn ',').map Text.trim)

/-- The return type behind the brackets of a signature. -/
def parseReturns (resolve : Resolver memory) :
    List Char → ExceptT SignatureFault (StateM memory) (Option TypeRef)
  | [] => return none
  | ':' :: name => return some (← parseType resolve name (Text.trim name))
  | tail => throw (.trailing (String.ofList tail))

/-- The signature that trimmed text stands for; the return type is resolved first. -/
def parseTrimmed (resolve : Resolver memory) :
    List Char → ExceptT SignatureFault (StateM memory) Signature
  | '(' :: rest =>
    match Text.cutAt? [')'] rest with
    | none => throw .unclosed
    | some (list, tail) => do
      let returns ← parseReturns resolve (Text.trim tail)
      let (params, variadic) ← parseList resolve list
      return ⟨params, variadic, returns⟩
  | list => do
    let (params, variadic) ← parseList resolve list
    return ⟨params, variadic, none⟩

/-- The signature that a text stands for. -/
def parse (resolve : Resolver memory) (text : String) :
    ExceptT RuntimeError (StateM memory) Signature :=
  (parseTrimmed resolve (Text.trim text.toList)).adapt (.malformedSignature text)

end Signature

end Colloquy
