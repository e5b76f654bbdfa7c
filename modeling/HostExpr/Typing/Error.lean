import HostExpr.Syntax.Error

/-!
# Errors of an analysis

Why a text is rejected before it runs, and where. Types stand in the causes as they are displayed.
-/

namespace HostExpr

/-- Why a program is rejected. -/
inductive CompileCause
  | parse (cause : Syntax.ParseCause)
  | unresolvedSymbol (name : String)
  | unresolvedMember (receiver member : String)
  | illegalCoercion (source target : String)
  | noSuchMethod (receiver name : String) (args : List String)
  | ambiguousOverload (receiver name : String) (candidates : List String)
  | invalidOperands (op left right : String)
  | unknownType (name : String)
  | notAssignable (what : String)
  | notIndexable (type : String)
deriving DecidableEq, Repr

/-- Why and where a program is rejected. -/
structure CompileError where
  cause : CompileCause
  span : Span
deriving DecidableEq, Repr

/-- A syntax error as an error of the whole analysis. -/
def CompileError.ofParse (e : Syntax.ParseError) : CompileError := ⟨.parse e.cause, e.span⟩

/-- Texts with commas between them. -/
def commaSeparated (texts : List String) : String := ", ".intercalate texts

namespace CompileCause

/-- The name that the error is about, if there is one. -/
def subject? : CompileCause → Option String
  | unresolvedSymbol name | unresolvedMember _ name | noSuchMethod _ name _ | ambiguousOverload _ name _
  | unknownType name => some name
  | _ => none

/-- The message of an error. -/
def message : CompileCause → String
  | parse cause => cause.message
  | unresolvedSymbol name => "Unresolved identifier '" ++ name ++ "'"
  | unresolvedMember receiver member => "Cannot resolve member '" ++ member ++ "' of " ++ receiver
  | illegalCoercion source target => "Cannot convert " ++ source ++ " to " ++ target
  | noSuchMethod receiver name args =>
    "No method " ++ receiver ++ "." ++ name ++ "(" ++ commaSeparated args ++ ") accepts these arguments"
  | ambiguousOverload receiver name candidates =>
    "Ambiguous call to " ++ receiver ++ "." ++ name ++ ": candidates are " ++ commaSeparated candidates
  | invalidOperands op left right =>
    "Operator '" ++ op ++ "' cannot be applied to " ++ left ++ " and " ++ right
  | unknownType name => "Unknown type '" ++ name ++ "'"
  | notAssignable what => "Cannot assign to " ++ what
  | notIndexable type => "Cannot index into non-indexable type '" ++ type ++ "'"

/-- The code of an error. -/
def code : CompileCause → String
  | parse cause => cause.code
  | unresolvedSymbol _ => "E001"
  | unresolvedMember .. => "E002"
  | illegalCoercion .. => "E003"
  | noSuchMethod .. => "E004"
  | ambiguousOverload .. => "E005"
  | invalidOperands .. => "E006"
  | unknownType _ => "E007"
  | notAssignable _ => "E008"
  | notIndexable _ => "E009"

/-- The hint that goes with an error. -/
def help? : CompileCause → Option String
  | parse cause => cause.help?
  | unresolvedSymbol _ => some "Declare it, or register it as an input of the expression"
  | illegalCoercion .. =>
    some "Register a conversion handler for the target type or convert explicitly"
  | noSuchMethod .. => some "Check the number and types of the arguments"
  | ambiguousOverload .. => some "Cast the arguments to select one overload"
  | unknownType _ => some "Import the class or register it with the engine"
  | notIndexable _ => some "Only lists, arrays and maps can be indexed"
  | _ => none

/-- The whole text of an error: message, code and hint. -/
def text (c : CompileCause) : String :=
  "error: " ++ c.message ++ " [" ++ c.code ++ "]" ++
    match c.help? with
    | some help => "\nhelp: " ++ help
    | none => ""

end CompileCause

end HostExpr
