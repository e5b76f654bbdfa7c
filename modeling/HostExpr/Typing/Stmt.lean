import HostExpr.Typing.Expr

/-!
# Typing statements

The typed form of a statement. A declaration of several names becomes several statements. Each block is analyzed
in a scope of its own.
-/

namespace HostExpr

open Typed

namespace Context

/-- The statements that give no type are of this type. -/
def effectInfo (span : Span) : Info := ⟨.object, span⟩

/-- Import all registered classes of a package. -/
def importPackage (ctx : Context) (package : String) (span : Span) : Analysis Unit :=
  match ctx.directory.inPackage ctx.classes package with
  | [] => Analysis.fail (.unknownType (package ++ ".*")) span
  | found => Analysis.modifyEnv fun env =>
    found.foldl (fun env c => env.addImport (ctx.classes.name c) (.cls c)) env

/-- Import a class under its simple name. -/
def importClass (ctx : Context) (path : String) (span : Span) : Analysis Unit :=
  match ctx.directory.get? path with
  | some c => Analysis.modifyEnv (·.addImport (ctx.classes.name c) (.cls c))
  | none => Analysis.fail (.unknownType path) span

/-- An expression that may be missing. -/
def expr? (ctx : Context) (e : Option Syntax.Expr) (hint : Option Ty) : Analysis (Option Expr) :=
  match e with
  | some e => some <$> ctx.expr e hint
  | none => return none

/-- A condition. -/
def condition (ctx : Context) (e : Syntax.Expr) : Analysis Expr := do
  let cond ← ctx.expr e none
  ctx.checkCondition cond
  return cond

/-- A condition that may be missing. -/
def condition? (ctx : Context) (e : Option Syntax.Expr) : Analysis (Option Expr) :=
  match e with
  | some e => some <$> ctx.condition e
  | none => return none

/-- The type of a declared name: the one that is written, or that of the initial value. -/
def declaredType (declared : Option Ty) (init : Option Expr) : Ty :=
  match declared, init with
  | some type, _ => type
  | none, some e => if e.type.isNull then .object else e.type
  | none, none => .object

/-- Declare a name, in the innermost block or else for the whole program. Gives whether it is in a block. -/
def declareName (name : String) (type : Ty) : Analysis Bool := do
  if (← get).scopes.isEmpty then
    Analysis.modifyEnv (·.declare name type)
    return false
  else
    Analysis.declareInBlock name type
    return true

/-- Declare one name. -/
def declarator (ctx : Context) (declared : Option Ty) (d : Syntax.Declarator) : Analysis Stmt := do
  let init ← ctx.expr? d.init declared
  match declared, init with
  | some type, some e => ctx.checkCoercion e.type type e.span
  | _, _ => pure ()
  let type := declaredType declared init
  let inBlock ← declareName d.name type
  Analysis.remember type
  return .declare ⟨type, d.span⟩ d.name declared init inBlock

/-- Declare names one after the other. -/
def declarators (ctx : Context) (declared : Option Ty) : List Syntax.Declarator → Analysis (List Stmt)
  | [] => return []
  | d :: ds => do
    let s ← ctx.declarator declared d
    return s :: (← ctx.declarators declared ds)

/-- Return a value. -/
def returned (ctx : Context) (value : Option Syntax.Expr) : Analysis Stmt := do
  let value ← ctx.expr? value none
  let info : Info := (value.map Expr.info).getD ⟨.null, .point 0⟩
  modify fun s => { s with returns := info.type :: s.returns }
  return .returns info value

/-- The type of the value of a row of statements: that of the last one. -/
def lastType (body : List Stmt) : Ty := (body.getLast?.map Stmt.type).getD .null

/-- Several statements as one. -/
def single : List Stmt → Stmt
  | [s] => s
  | body => .block (effectInfo (.point 0)) body

mutual

/-- The typed form of a statement. -/
def stmt (ctx : Context) : Syntax.Stmt → Analysis (List Stmt)
  | .expr e => do return [.expr (← ctx.expr e none)]
  | .declare type ds => do
    let declared ← ctx.resolveType? type
    ctx.declarators declared ds
  | .branch cond thenBody elseBody => do
    let cond ← ctx.condition cond
    -- each branch is a block, and neither sees the names of the other
    let thenBody ← Analysis.inBlock (stmts ctx thenBody)
    let elseBody ←
      match elseBody with
      | some body => some <$> Analysis.inBlock (stmts ctx body)
      | none => pure none
    return [.branch (effectInfo cond.span) cond thenBody elseBody]
  | .whileLoop cond body => do
    let cond ← ctx.condition cond
    let body ← Analysis.inBlock (stmts ctx body)
    return [.whileLoop (effectInfo cond.span) cond body]
  | .forLoop init cond update body =>
    Analysis.inBlock do
      let init ←
        match init with
        -- several declarators make a block, which is a frame of its own in a run
        | some s => do pure (some (single (← stmt ctx s)))
        | none => pure none
      let cond ← ctx.condition? cond
      let update ← ctx.exprs update
      let body ← Analysis.inBlock (stmts ctx body)
      let span := (cond.map Expr.span).getD (.point 0)
      return [.forLoop (effectInfo span) init cond update body]
  | .forEach type name span items body => do
    let declared ← ctx.resolveType? type
    let items ← ctx.expr items none
    let item ← ctx.iteratedType items
    Analysis.inBlock do
      -- the items are analyzed outside: they do not see the name
      Analysis.declareInBlock name (declared.getD item)
      let body ← Analysis.inBlock (stmts ctx body)
      return [.forEach (effectInfo span) name declared items body]
  | .block body => do
    let body ← Analysis.inBlock (stmts ctx body)
    return [.block ⟨lastType body, .point 0⟩ body]
  | .returns value => do return [← ctx.returned value]
  | .importPath path everything span => do
    if everything then ctx.importPackage path span else ctx.importClass path span
    return [.nop ⟨.null, span⟩]

/-- The typed forms of statements in a row. -/
def stmts (ctx : Context) : List Syntax.Stmt → Analysis (List Stmt)
  | [] => return []
  | s :: ss => do
    let first ← stmt ctx s
    return first ++ (← stmts ctx ss)

end

/-! ## The steps of declarations and of loops -/

section

variable (ctx : Context)

/-- Reject an initial value that cannot be made to fit the type that is written. -/
def checkInitial (declared : Option Ty) (init : Option Expr) : Analysis Unit :=
  match declared, init with
  | some type, some e => ctx.checkCoercion e.type type e.span
  | _, _ => return ()

/-- The steps of a declaration: the initial value, its check, and then the name. -/
theorem declarator_eq (declared : Option Ty) (d : Syntax.Declarator) :
    ctx.declarator declared d = (do
      let init ← ctx.expr? d.init declared
      ctx.checkInitial declared init
      let inBlock ← declareName d.name (declaredType declared init)
      Analysis.remember (declaredType declared init)
      return .declare ⟨declaredType declared init, d.span⟩ d.name declared init inBlock) := by
  unfold declarator
  congr 1
  funext init
  cases declared <;> cases init <;> rfl

/-- What is analyzed of a `for` statement behind its start. -/
def loopParts (init : Option Stmt) (cond : Option Syntax.Expr) (update : List Syntax.Expr) (body : List Syntax.Stmt) :
    Analysis (List Stmt) := do
  let cond ← ctx.condition? cond
  let update ← ctx.exprs update
  let body ← Analysis.inBlock (ctx.stmts body)
  return [.forLoop (effectInfo ((cond.map Expr.span).getD (.point 0))) init cond update body]

theorem stmt_forLoop_none (cond : Option Syntax.Expr) (update : List Syntax.Expr) (body : List Syntax.Stmt) :
    ctx.stmt (.forLoop none cond update body) = Analysis.inBlock (ctx.loopParts none cond update body) := by
  rw [stmt]
  rfl

theorem stmt_forLoop_some (start : Syntax.Stmt) (cond : Option Syntax.Expr) (update : List Syntax.Expr)
    (body : List Syntax.Stmt) : ctx.stmt (.forLoop (some start) cond update body) = Analysis.inBlock (do
      let row ← ctx.stmt start
      ctx.loopParts (some (single row)) cond update body) := by
  rw [stmt]
  rfl

end

end Context

end HostExpr
