import HostExpr.Names.Scope
import HostExpr.Typing.Environment
import HostExpr.Typing.Error
import HostExpr.Typing.Tree
import HostExpr.World.Conversion

/-!
# The state of an analysis

An analysis walks over a program once. It knows what the host provides and what can be named, and it keeps the
environment, the names declared in the open blocks, and the number of the next call site. What it has learned
before an error stays.
-/

namespace HostExpr

/-- What an analysis knows from the start: the world, the classes and functions that can be named, and the source
text. -/
structure Context where
  world : World
  directory : Directory
  functions : Table Nat
  source : List Char

/-- What an analysis keeps. -/
structure AnalysisState where
  env : Environment
  scopes : Scopes Ty
  nextSite : Nat
  /-- The types of the values returned so far, the latest first. -/
  returns : List Ty
deriving Inhabited

/-- A step of an analysis. -/
abbrev Analysis (α : Type) := ExceptT CompileError (StateM AnalysisState) α

/-- The state before an analysis. -/
def AnalysisState.ofEnvironment (env : Environment) : AnalysisState := ⟨env, .empty, 0, []⟩

namespace Analysis

/-- Reject the program. -/
def fail {α : Type} (cause : CompileCause) (span : Span) : Analysis α := throw ⟨cause, span⟩

/-- The environment as it is now. -/
def env : Analysis Environment := do return (← get).env

/-- Change the environment. -/
def modifyEnv (f : Environment → Environment) : Analysis Unit := modify fun s => { s with env := f s.env }

/-- Remember the arguments of a type. -/
def remember (t : Ty) : Analysis Unit := modifyEnv (·.rememberParams t.args)

/-- The number of a new call site. -/
def newSite : Analysis Nat := modifyGet fun s => (s.nextSite, { s with nextSite := s.nextSite + 1 })

/-- Whether what cannot be resolved is rejected. -/
def strong : Analysis Bool := do return (← env).strong

/-- Whether members of receivers of unknown type are rejected. -/
def rejectsDynamic : Analysis Bool := do
  let env ← env
  return env.strong && env.strict

/-- Declare a name in the innermost block. -/
def declareInBlock (name : String) (type : Ty) : Analysis Unit := modify fun s =>
  match s.scopes.declare name type with
  | .ok scopes => { s with scopes := scopes }
  | .error _ => s

/-- Analyze inside a new block. The names declared in it are remembered, also if the analysis of it fails. -/
def inBlock {α : Type} (body : Analysis α) : Analysis α := fun s =>
  let (outcome, s) := body { s with scopes := s.scopes.push }
  match s.scopes.pop with
  | .ok (frame, scopes) =>
    (outcome, { s with scopes := scopes, env := frame.names.foldl Environment.noteBlockName s.env })
  | .error _ => (outcome, s)

end Analysis

namespace Context

/-- The classes of the world. -/
def classes (ctx : Context) : Classes := ctx.world.classes

/-- How a type is displayed. -/
def typeText (ctx : Context) (t : Ty) : String := t.text ctx.classes

end Context

end HostExpr
