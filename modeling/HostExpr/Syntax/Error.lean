import HostExpr.Grammar.Pattern
import HostExpr.Number.Integer
import HostExpr.Syntax.Escape
import HostExpr.Syntax.Span

/-!
# Syntax errors

Why a text is no program, and where. Each cause has one message, one code, and for some a hint.
-/

namespace HostExpr.Syntax

/-- Why a text is no program. -/
inductive ParseCause
  /-- The rules that were tried at the rightmost place, and the character that stands there. -/
  | unexpected (expected : List Rule) (found : Option Char)
  | integerTooLarge
  | doubleMalformed
  | escape (e : EscapeError)
  | tooDeep (limit : Nat)
  /-- A parse tree of a shape that the grammar does not build. -/
  | malformedTree
deriving DecidableEq, Repr

/-- A syntax error. -/
structure ParseError where
  cause : ParseCause
  span : Span
deriving DecidableEq, Repr

/-- What a rule is called in a message. -/
def concept : Rule → String
  | .integer | .long | .double | .boolean | .string | .null => "literal"
  | .ident | .qualifiedName => "identifier"
  | .typeExpr | .typeName => "type"
  | .endOfInput => "end of input"
  | .assignOp => "assignment"
  | .orOp | .andOp | .eqOp | .neOp | .ltOp | .leOp | .gtOp | .geOp | .addOp | .subOp | .mulOp | .divOp
  | .remOp => "operator"
  | _ => "expression"

/-- The texts without repetitions, each at its first place. -/
def distinct (texts : List String) : List String :=
  texts.foldl (fun seen t => if t ∈ seen then seen else seen ++ [t]) []

/-- `a`, `a or b`, `a, b or c`. -/
def enumerated (texts : List String) : String :=
  match texts.getLast? with
  | none => "something else"
  | some last =>
    if texts.dropLast.isEmpty then last else ", ".intercalate texts.dropLast ++ " or " ++ last

/-- What was expected, in the order of the grammar. -/
def expectedText (rules : List Rule) : String :=
  enumerated (distinct ((Rule.listed.filter (· ∈ rules)).map concept))

/-- What stands at a place. -/
def foundText : Option Char → String
  | some c => "'" ++ c.toString ++ "'"
  | none => "end of input"

/-- The message of an escape error. -/
def EscapeError.message : EscapeError → String
  | unknown c => "invalid escape sequence '\\" ++ c.toString ++ "'"
  | noCharacter code => "invalid unicode escape '\\u" ++ String.ofList code ++ "'"
  | dangling => "dangling escape at end of string"

namespace ParseCause

/-- The message of a syntax error. -/
def message : ParseCause → String
  | unexpected rules found => "Expected " ++ expectedText rules ++ ", found " ++ foundText found
  | integerTooLarge => "invalid integer literal"
  | doubleMalformed => "invalid float literal"
  | escape e => e.message
  | tooDeep limit => "Expression nesting depth exceeds maximum of " ++ natText limit ++ " levels"
  | malformedTree => "missing expected pair in rule"

/-- The code of a syntax error. -/
def code : ParseCause → String
  | unexpected .. => "P001"
  | integerTooLarge | doubleMalformed | escape _ => "P003"
  | tooDeep _ => "P004"
  | malformedTree => "P999"

/-- The hint that goes with a syntax error. -/
def help? : ParseCause → Option String
  | integerTooLarge | doubleMalformed | escape _ => some "Check the literal format"
  | tooDeep _ => some "Reduce nesting or simplify the expression"
  | _ => none

end ParseCause

end HostExpr.Syntax
