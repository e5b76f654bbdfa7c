import HostExpr.Execution.State
import HostExpr.Typing.Error

/-!
# Errors of the engine

All the ways in which a request to the engine can fail, with the text of each.
-/

namespace HostExpr

/-- How far a compiler has come. -/
inductive Stage
  | unparsed
  | analyzed
  | executable
  | failed
deriving DecidableEq, Repr

/-- The word for a stage. -/
def Stage.name : Stage → String
  | unparsed => "Unparsed"
  | analyzed => "Analyzed"
  | executable => "Executable"
  | failed => "Failed"

/-- What the host did wrong. -/
inductive Misuse
  | unknownStrategy (name : String)
  | verifyOnly
  | setterExecuted
  | notSetter
  /-- A compiler was asked to run again. -/
  | alreadyRan (stage : Stage)
deriving DecidableEq, Repr

/-- The message of a misuse. -/
def Misuse.message : Misuse → String
  | unknownStrategy name => "unknown accessor strategy '" ++ name ++ "'"
  | verifyOnly => "verify-only configuration produces no executable"
  | setterExecuted => "setter expressions are executed with execute_set"
  | notSetter => "only expressions compiled with compile_setter can be assigned through"
  | alreadyRan stage => "expression compiler already ran (state: " ++ stage.name ++ ")"

/-- Why a written expression cannot be read. -/
inductive ImageError
  | foreign
  | truncatedHeader
  | version (found expected : Nat)
  | truncatedBody
  /-- A class or function that the engine does not have. -/
  | unlinked
deriving DecidableEq, Repr

/-- The message of an unreadable image. -/
def ImageError.message : ImageError → String
  | foreign => "not a compiled brisk expression"
  | truncatedHeader => "truncated header"
  | version found expected =>
    "unsupported format version " ++ natText found ++ " (expected " ++ natText expected ++ ")"
  | truncatedBody => "Hit the end of buffer, expected more data"
  | unlinked => "Serde Deserialization Error"

/-- Why a request failed. -/
inductive EngineError
  | compile (e : CompileError)
  | stopped (s : Stop)
  | image (e : ImageError)
  | misuse (m : Misuse)
deriving DecidableEq, Repr

/-- The text of a failure. -/
def EngineError.text : EngineError → String
  | compile e => e.cause.text
  | stopped s => s.message
  | image e => "persistence error: " ++ e.message
  | misuse m => "API error: " ++ m.message

end HostExpr
