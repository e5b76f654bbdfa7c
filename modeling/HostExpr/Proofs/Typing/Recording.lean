import HostExpr.Engine.Basic
import HostExpr.Proofs.Typing.Steps

/-!
# Recorded analyses

A second analysis of programs. It does what the first one does, and after each of its steps it takes down the
environment. What it has taken down when it fails is there as well.
-/

namespace HostExpr

open Typed

/-- The state of a recorded analysis, with the environments that it has gone through, the latest first. -/
structure Recorded where
  state : AnalysisState
  past : List Environment

/-- A recorded analysis before its first step. -/
def Recorded.start (env : Environment) : Recorded := ⟨.ofEnvironment env, [env]⟩

/-- A part of a recorded analysis. -/
abbrev Recording (α : Type) := ExceptT CompileError (StateM Recorded) α

namespace Recording

variable {α : Type}

/-- A step of the analysis; the environment is taken down behind it. -/
def step (x : Analysis α) : Recording α := fun t =>
  let (outcome, state) := x t.state
  (outcome, ⟨state, state.env :: t.past⟩)

/-- Analyze inside a new block; the environment is taken down behind the block. -/
def inBlock (body : Recording α) : Recording α := fun t =>
  let (outcome, t) := body { t with state := t.state.opened }
  (outcome, ⟨t.state.closed, t.state.closed.env :: t.past⟩)

end Recording

namespace Context

open Recording

variable (ctx : Context)

/-! ## Expressions -/

/-- Read a chain of properties. -/
def recordChain (span : Span) : Expr → List String → Recording Expr
  | e, [] => return e
  | e, name :: names => do recordChain span (← step (ctx.property e name span)) names

/-- The left side of a plain assignment, and the type that it stores. -/
def recordTarget (target : Syntax.Expr) (analyzed : Recording Expr) (value : Ty) :
    Recording (Expr × Option Ty) := do
  match target with
  | .ident span name => step (ctx.assignedName name span value)
  | .field span .. | .index span .. =>
    let node ← analyzed
    step (ctx.checkWritable node span)
    step (ctx.checkAssignable node node.span)
    return (node, storedType? node.type)
  | _ => step (ctx.notAssignable target.span)

mutual

/-- The typed form of an expression. -/
def recordExpr : Syntax.Expr → Option Ty → Recording Expr
  | .literal span value, _ => return .constant ⟨value.type, span⟩ value
  | .ident span name, _ => step (ctx.ident name span)
  | .field span receiver name, _ => do
    match ctx.qualified? (← step get) (.field span receiver name) with
    | some (c, members) => recordChain ctx span (classNode c span) members
    | none => do
      let receiver ← recordExpr receiver none
      step (ctx.property receiver name span)
  | .methodCall span receiver name args, _ => do
    let receiver ← recordExpr receiver none
    let args ← recordExprs args
    step (ctx.methodCall receiver name args span)
  | .call span name args, _ => do
    let args ← recordExprs args
    step (ctx.callNamed name args span)
  | .index span receiver position, _ => do
    let receiver ← recordExpr receiver none
    let position ← recordExpr position none
    step (ctx.index receiver position span)
  | .assign span target .plain value, _ => do
    let value ← recordExpr value none
    let (target, stored) ← recordTarget ctx target (recordExpr target none) value.type
    step (ctx.plainAssignment value target stored span)
  | .assign span target (.compound op) value, _ => do
    let target ← recordExpr target none
    let value ← recordExpr value none
    step (ctx.compoundAssignment op target value span)
  | .arith span op left right, _ => do
    let left ← recordExpr left none
    let right ← recordExpr right none
    return .arith ⟨← step (ctx.arithType op left.type right.type span), span⟩ op left right
  | .logic span op left right, _ => do
    let left ← recordExpr left none
    step (ctx.checkCondition left)
    let right ← recordExpr right none
    step (ctx.checkCondition right)
    return .logic ⟨.boolean, span⟩ op left right
  | .compare span op left right, _ => do
    let left ← recordExpr left none
    let right ← recordExpr right none
    step (ctx.checkComparison op left.type right.type span)
    return .compare ⟨.boolean, span⟩ op left right
  | .unary span op operand, _ => do
    let operand ← recordExpr operand none
    if op = .not then step (ctx.checkCondition operand)
    return .unary ⟨← step (ctx.unaryType op operand.type span), span⟩ op operand
  | .step span op target, _ => do
    let target ← recordExpr target none
    step (ctx.stepNode op target span)
  | .cast span type operand, _ => do
    let type ← step (ctx.resolveType type)
    let operand ← recordExpr operand (some type)
    step (ctx.checkCast operand.type type span)
    return .cast ⟨type, span⟩ type operand
  | .conditional span cond thenBranch elseBranch, hint => do
    let cond ← recordExpr cond none
    step (ctx.checkCondition cond)
    let a ← recordExpr thenBranch hint
    let b ← recordExpr elseBranch hint
    return .conditional ⟨ctx.classes.unify a.type b.type, span⟩ cond a b
  | .construct span type args, _ => do
    let type ← step (ctx.resolveType type)
    let args ← recordExprs args
    step (ctx.construct type args span)
  | .newArray span type items, _ => do
    let item ← step (ctx.resolveType type)
    let items ← recordItems item items
    return .newArray ⟨.arrayOf item, span⟩ item items
  | .newSized span type length, _ => do
    let item ← step (ctx.resolveType type)
    let length ← recordExpr length none
    step (ctx.checkLength length)
    return .newSized ⟨.arrayOf item, span⟩ item length
  | .inlineArray span items, hint => do
    match expectedItem? hint with
    | some item =>
      let items ← recordItems item items
      return .newArray ⟨.arrayOf item, span⟩ item items
    | none => return ctx.inlineArray (← recordExprs items) span
  | .inlineList span items, _ => do step (ctx.inlineList (← recordExprs items) span)
  | .inlineMap span entries, _ => do step (ctx.inlineMap (← recordEntries entries) span)

/-- The typed forms of expressions in a row. -/
def recordExprs : List Syntax.Expr → Recording (List Expr)
  | [] => return []
  | e :: es => do
    let e ← recordExpr e none
    return e :: (← recordExprs es)

/-- The typed forms of the items of an array with a known type of items. -/
def recordItems (item : Ty) : List Syntax.Expr → Recording (List Expr)
  | [] => return []
  | e :: es => do
    let e ← recordExpr e (some item)
    step (ctx.checkCoercion e.type item e.span)
    return e :: (← recordItems item es)

/-- The typed forms of the entries of a map. -/
def recordEntries : List (Syntax.Expr × Syntax.Expr) → Recording (List (Expr × Expr))
  | [] => return []
  | (key, value) :: es => do
    let key ← recordExpr key none
    let value ← recordExpr value none
    return (key, value) :: (← recordEntries es)

end

/-! ## Statements -/

/-- An expression that may be missing. -/
def recordExpr? (e : Option Syntax.Expr) (hint : Option Ty) : Recording (Option Expr) :=
  match e with
  | some e => some <$> ctx.recordExpr e hint
  | none => return none

/-- A condition. -/
def recordCondition (e : Syntax.Expr) : Recording Expr := do
  let cond ← ctx.recordExpr e none
  step (ctx.checkCondition cond)
  return cond

/-- A condition that may be missing. -/
def recordCondition? (e : Option Syntax.Expr) : Recording (Option Expr) :=
  match e with
  | some e => some <$> ctx.recordCondition e
  | none => return none

/-- Declare one name. -/
def recordDeclarator (declared : Option Ty) (d : Syntax.Declarator) : Recording Stmt := do
  let init ← ctx.recordExpr? d.init declared
  match declared, init with
  | some type, some e => step (ctx.checkCoercion e.type type e.span)
  | _, _ => pure ()
  let type := declaredType declared init
  let inBlock ← step (declareName d.name type)
  step (Analysis.remember type)
  return .declare ⟨type, d.span⟩ d.name declared init inBlock

/-- Declare names one after the other. -/
def recordDeclarators (declared : Option Ty) : List Syntax.Declarator → Recording (List Stmt)
  | [] => return []
  | d :: ds => do
    let s ← ctx.recordDeclarator declared d
    return s :: (← recordDeclarators declared ds)

/-- Return a value. -/
def recordReturned (value : Option Syntax.Expr) : Recording Stmt := do
  let value ← ctx.recordExpr? value none
  let info : Info := (value.map Expr.info).getD ⟨.null, .point 0⟩
  step (modify fun s => { s with returns := info.type :: s.returns })
  return .returns info value

mutual

/-- The typed form of a statement. -/
def recordStmt : Syntax.Stmt → Recording (List Stmt)
  | .expr e => do return [.expr (← ctx.recordExpr e none)]
  | .declare type ds => do
    let declared ← step (ctx.resolveType? type)
    ctx.recordDeclarators declared ds
  | .branch cond thenBody elseBody => do
    let cond ← ctx.recordCondition cond
    let thenBody ← inBlock (recordStmts thenBody)
    let elseBody ←
      match elseBody with
      | some body => some <$> inBlock (recordStmts body)
      | none => pure none
    return [.branch (effectInfo cond.span) cond thenBody elseBody]
  | .whileLoop cond body => do
    let cond ← ctx.recordCondition cond
    let body ← inBlock (recordStmts body)
    return [.whileLoop (effectInfo cond.span) cond body]
  | .forLoop init cond update body =>
    inBlock do
      let init ←
        match init with
        | some s => do pure (some (single (← recordStmt s)))
        | none => pure none
      let cond ← ctx.recordCondition? cond
      let update ← ctx.recordExprs update
      let body ← inBlock (recordStmts body)
      let span := (cond.map Expr.span).getD (.point 0)
      return [.forLoop (effectInfo span) init cond update body]
  | .forEach type name span items body => do
    let declared ← step (ctx.resolveType? type)
    let items ← ctx.recordExpr items none
    let item ← step (ctx.iteratedType items)
    inBlock do
      step (Analysis.declareInBlock name (declared.getD item))
      let body ← inBlock (recordStmts body)
      return [.forEach (effectInfo span) name declared items body]
  | .block body => do
    let body ← inBlock (recordStmts body)
    return [.block ⟨lastType body, .point 0⟩ body]
  | .returns value => do return [← ctx.recordReturned value]
  | .importPath path everything span => do
    if everything then step (ctx.importPackage path span) else step (ctx.importClass path span)
    return [.nop ⟨.null, span⟩]

/-- The typed forms of statements in a row. -/
def recordStmts : List Syntax.Stmt → Recording (List Stmt)
  | [] => return []
  | s :: ss => do
    let first ← recordStmt s
    return first ++ (← recordStmts ss)

end

/-! ## Programs -/

/-- The typed form of a program. -/
def recordProgram (body : List Syntax.Stmt) : Recording Program := do
  let body ← ctx.recordStmts body
  let s ← step get
  let egress := s.returns.foldr (fun t acc => ctx.classes.unify acc t) (lastType body)
  return ⟨body, egress, s.nextSite⟩

/-- The typed form of a setter. -/
def recordSetter (body : List Syntax.Stmt) : Recording Program := do
  match body with
  | [.expr target] =>
    let (target, stored) ← ctx.recordTarget target (ctx.recordExpr target none) .object
    return ⟨[.expr target], stored.getD .object, (← step get).nextSite⟩
  | _ =>
    step (Analysis.fail (.notAssignable (String.ofList (trimmed ctx.source))) ⟨0, byteLength ctx.source⟩)

/-- Analyze a program or setter from an environment; gives the environments that the analysis goes through, the
latest first. -/
def record (setter : Bool) (body : List Syntax.Stmt) (env : Environment) :
    Except CompileError Program × List Environment :=
  let analysis := if setter then ctx.recordSetter body else ctx.recordProgram body
  let (outcome, t) := analysis (.start env)
  (outcome, t.past)

end Context

/-- Parse and analyze the source; gives the environments that the analysis goes through, the latest first. -/
def Compiler.record (c : Compiler) (env : Environment) : Except CompileError Program × List Environment :=
  match Syntax.parse c.source with
  | .error e => (.error (.ofParse e), [env])
  | .ok body => c.context.record c.isSetter body env

/-- The environment that compilers leave which run one after the other, the first one from a configuration. -/
def Config.after (config : Config) (compilers : List Compiler) : Environment :=
  compilers.foldl (fun env c => (c.run env).2.1) (.ofConfig config)

end HostExpr
