import HostExpr.Engine.Error
import HostExpr.Execution.Program
import HostExpr.Syntax.Parse
import HostExpr.Typing.Program

/-!
# The engine

An engine compiles texts to expressions and expressions run. What a compiled expression keeps from one run to the
next is what its call sites have found.
-/

namespace HostExpr

/-- What programs are compiled against: the world, the names of classes and functions, and the limits of runs for
which none are given. -/
structure Engine where
  world : World
  directory : Directory
  functions : Table Nat
  limits : Limits

/-- A compiled expression. -/
structure Expression where
  program : Typed.Program
  env : Environment
  isSetter : Bool
  limits : Limits
  sites : Array Site

/-- An expression with fresh call sites. -/
def Expression.fresh (program : Typed.Program) (env : Environment) (isSetter : Bool) (limits : Limits) :
    Expression where
  program := program
  env := env
  isSetter := isSetter
  limits := limits
  sites := (program.sites env.strategy?).toArray

/-! ## Compilation -/

/-- A compiler for one source text. It runs once. -/
structure Compiler where
  engine : Engine
  source : String
  verifyOnly : Bool
  isSetter : Bool
  stage : Stage

namespace Compiler

/-- What an analysis of the source knows from the start. -/
def context (c : Compiler) : Context where
  world := c.engine.world
  directory := c.engine.directory
  functions := c.engine.functions
  source := c.source.toList

/-- Parse and analyze the source; gives the environment as the analysis leaves it. -/
def analyze (c : Compiler) (env : Environment) : Except CompileError Typed.Program × Environment :=
  match Syntax.parse c.source with
  | .error e => (.error (.ofParse e), env)
  | .ok body => c.context.analyze c.isSetter body env

/-- Run the compiler from an environment. Nothing is produced if only verification is asked for. -/
def run (c : Compiler) (env : Environment) :
    Except EngineError (Option Expression) × Environment × Compiler :=
  if c.stage ≠ .unparsed then (.error (.misuse (.alreadyRan c.stage)), env, c)
  else
    match c.analyze env with
    | (.error e, env) => (.error (.compile e), env, { c with stage := .failed })
    | (.ok program, env) =>
      -- the environment may ask for verification as well as the compiler
      if c.verifyOnly || env.verifyOnly then (.ok none, env, { c with stage := .analyzed })
      else
        (.ok (some (.fresh program env c.isSetter c.engine.limits)), env, { c with stage := .executable })

end Compiler

namespace Engine

/-- A compiler that has not run. -/
def compiler (e : Engine) (source : String) (verifyOnly isSetter : Bool) : Compiler :=
  ⟨e, source, verifyOnly, isSetter, .unparsed⟩

/-- Compile a program, or a setter. -/
def compile (e : Engine) (source : String) (isSetter : Bool) (config : Config) :
    Except EngineError Expression :=
  match ((e.compiler source false isSetter).run (.ofConfig config)).1 with
  | .ok (some x) => .ok x
  | .ok none => .error (.misuse .verifyOnly)
  | .error err => .error err

/-- Analyze a program; gives the environment that results. -/
def analyze (e : Engine) (source : String) (config : Config) : Except EngineError Environment :=
  match (e.compiler source true false).run (.ofConfig config) with
  | (.ok _, env, _) => .ok env
  | (.error err, _, _) => .error err

end Engine

/-! ## Execution -/

/-- What an execution works on: the store, the caller's bindings and the expression. -/
structure Workspace where
  store : Store
  bindings : Table Value
  expression : Expression

namespace Workspace

/-- Run against a root; what was done before a stop stays done. -/
def perform {α : Type} (ws : Workspace) (run : Exec α) : Except EngineError α × Workspace :=
  let (outcome, s) := run (.start ws.store ws.bindings ws.expression.sites)
  (outcome.mapError .stopped,
    { store := s.store, bindings := s.bindings, expression := { ws.expression with sites := s.sites } })

/-- The setting of a run. -/
def setting (world : World) (strategy : Strategy) (limits : Limits) (root : Value) : Setting :=
  ⟨world, strategy, limits, unlimitedTurns, root⟩

/-- Execute a compiled program under limits. -/
def executeWith (ws : Workspace) (world : World) (strategy : Strategy) (limits : Limits) (root : Value) :
    Except EngineError Value × Workspace :=
  if ws.expression.isSetter then (.error (.misuse .setterExecuted), ws)
  else ws.perform ((setting world strategy limits root).runProgram ws.expression.program)

/-- Execute a compiled program under its own limits. -/
def execute (ws : Workspace) (world : World) (strategy : Strategy) (root : Value) :
    Except EngineError Value × Workspace :=
  ws.executeWith world strategy ws.expression.limits root

/-- Store a value through a compiled setter. -/
def executeSet (ws : Workspace) (world : World) (strategy : Strategy) (root v : Value) :
    Except EngineError Unit × Workspace :=
  if ws.expression.isSetter then
    ws.perform ((setting world strategy ws.expression.limits root).runSetter ws.expression.program v)
  else (.error (.misuse .notSetter), ws)

end Workspace

end HostExpr
