import HostExpr.Number.Integer

/-!
# Failures of a running program

The causes for which a program can fail while it runs, and the message of each. Types and classes stand in them
as they are displayed.
-/

namespace HostExpr

/-- A value that could not be made into one of another type. -/
structure ConversionError where
  source : String
  target : String
  detail : Option String
deriving DecidableEq, Repr, Inhabited

/-- The message of a failed conversion. -/
def ConversionError.message (e : ConversionError) : String :=
  "cannot convert " ++ e.source ++ " to " ++ e.target ++
    (match e.detail with
      | some d => ": " ++ d
      | none => "")

/-- A failure that the host reports; it is passed on as it is. -/
structure HostError where
  text : String
deriving DecidableEq, Repr, Inhabited

/-- Why a program failed. -/
inductive RuntimeError
  | nullReceiver (member : String)
  | noSuchMember (cls member : String)
  | noApplicableMethod (cls name args : String)
  | indexOutOfBounds (index : Int) (length : Nat)
  | divisionByZero
  | invalidOperands (op left right : String)
  | notIndexable (type : String)
  | notCallable (what : String)
  | argumentMismatch (method expected found : String)
  | unboundInput (name : String)
  | nonBooleanCondition (found : String)
  | conversion (e : ConversionError)
  | host (e : HostError)
  /-- A container that lies within itself has no text and cannot be compared. -/
  | selfContaining
deriving DecidableEq, Repr, Inhabited

namespace RuntimeError

/-- The message of a failure. -/
def message : RuntimeError → String
  | nullReceiver member => "cannot access '" ++ member ++ "' on null"
  | noSuchMember cls member => "class " ++ cls ++ " has no accessible member '" ++ member ++ "'"
  | noApplicableMethod cls name args => "no applicable method " ++ cls ++ "." ++ name ++ "(" ++ args ++ ")"
  | indexOutOfBounds index length =>
    "index " ++ intText index ++ " out of bounds (length: " ++ natText length ++ ")"
  | divisionByZero => "division by zero"
  | invalidOperands op left right =>
    "operator '" ++ op ++ "' cannot be applied to " ++ left ++ " and " ++ right
  | notIndexable type => "values of type " ++ type ++ " cannot be indexed"
  | notCallable what => what ++ " is not callable"
  | argumentMismatch method expected found => method ++ " expected " ++ expected ++ ", found " ++ found
  | unboundInput name => "no value bound for input '" ++ name ++ "'"
  | nonBooleanCondition found => "condition must be a Boolean, found " ++ found
  | conversion e => e.message
  | host e => e.text
  | selfContaining => "a container contains itself"

end RuntimeError

end HostExpr
