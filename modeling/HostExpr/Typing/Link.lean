import HostExpr.Typing.Environment
import HostExpr.Typing.Tree

/-!
# Linking

A typed program mentions classes and functions. Linking replaces each by another one, and fails if one has none to
be replaced by. All else stays as it is.
-/

namespace HostExpr

/-- What classes and functions are replaced by. -/
structure Linker where
  cls : ClassRef → Option ClassRef
  function : Nat → Option Nat

namespace Linker

mutual

/-- Link a type. -/
def type (l : Linker) : Ty → Option Ty
  | .mk c args => do return .mk (← l.cls c) (← types l args)

/-- Link types in a row. -/
def types (l : Linker) : List Ty → Option (List Ty)
  | [] => some []
  | t :: ts => do return (← type l t) :: (← types l ts)

end

/-- Link a type that may be missing. -/
def type? (l : Linker) : Option Ty → Option (Option Ty)
  | none => some none
  | some t => some <$> l.type t

/-- Link types by name. -/
def typeTable (l : Linker) (t : Table Ty) : Option (Table Ty) :=
  t.mapM fun (name, type) => do return (name, ← l.type type)

/-- Link an import. -/
def imported (l : Linker) : Import → Option Import
  | .cls c => .cls <$> l.cls c
  | .function f => .function <$> l.function f

/-- Link imports by name. -/
def importTable (l : Linker) (t : Table Import) : Option (Table Import) :=
  t.mapM fun (name, what) => do return (name, ← l.imported what)

/-- Link an environment. -/
def environment (l : Linker) (env : Environment) : Option Environment := do
  return { env with
    vars := ← l.typeTable env.vars
    inputs := ← l.typeTable env.inputs
    imports := ← l.importTable env.imports
    context? := ← l.type? env.context?
    lastTypeParams := ← l.types env.lastTypeParams }

/-- Link the type of a node. -/
def info (l : Linker) (i : Typed.Info) : Option Typed.Info := do return ⟨← l.type i.type, i.span⟩

open Typed

mutual

/-- Link an expression. -/
def expr (l : Linker) : Expr → Option Expr
  | .constant i v => do return .constant (← l.info i) v
  | .declared i name => do return .declared (← l.info i) name
  | .input i name site => do return .input (← l.info i) name site
  | .this i => do return .this (← l.info i)
  | .classRef i c => do return .classRef (← l.info i) (← l.cls c)
  | .staticField i c field => do return .staticField (← l.info i) (← l.cls c) field
  | .property i receiver name site => do return .property (← l.info i) (← expr l receiver) name site
  | .methodCall i receiver name args site => do
    return .methodCall (← l.info i) (← expr l receiver) name (← exprs l args) site
  | .functionCall i f args => do return .functionCall (← l.info i) (← l.function f) (← exprs l args)
  | .convert i v target => do return .convert (← l.info i) (← expr l v) (← expr l target)
  | .index i receiver position site => do
    return .index (← l.info i) (← expr l receiver) (← expr l position) site
  | .assign i target op v stored => do
    return .assign (← l.info i) (← expr l target) op (← expr l v) (← l.type? stored)
  | .arith i op left right => do return .arith (← l.info i) op (← expr l left) (← expr l right)
  | .logic i op left right => do return .logic (← l.info i) op (← expr l left) (← expr l right)
  | .compare i op left right => do return .compare (← l.info i) op (← expr l left) (← expr l right)
  | .unary i op e => do return .unary (← l.info i) op (← expr l e)
  | .step i op e => do return .step (← l.info i) op (← expr l e)
  | .cast i t e => do return .cast (← l.info i) (← l.type t) (← expr l e)
  | .conditional i c a b => do
    return .conditional (← l.info i) (← expr l c) (← expr l a) (← expr l b)
  | .construct i c args chosen => do
    return .construct (← l.info i) (← l.cls c) (← exprs l args) chosen
  | .newArray i t items => do return .newArray (← l.info i) (← l.type t) (← exprs l items)
  | .newSized i t e => do return .newSized (← l.info i) (← l.type t) (← expr l e)
  | .inlineList i items => do return .inlineList (← l.info i) (← exprs l items)
  | .inlineMap i entries => do return .inlineMap (← l.info i) (← exprEntries l entries)

/-- Link expressions in a row. -/
def exprs (l : Linker) : List Expr → Option (List Expr)
  | [] => some []
  | e :: es => do return (← expr l e) :: (← exprs l es)

/-- Link the entries of a map. -/
def exprEntries (l : Linker) : List (Expr × Expr) → Option (List (Expr × Expr))
  | [] => some []
  | (k, v) :: es => do return (← expr l k, ← expr l v) :: (← exprEntries l es)

end

/-- Link an expression that may be missing. -/
def expr? (l : Linker) : Option Expr → Option (Option Expr)
  | none => some none
  | some e => some <$> l.expr e

mutual

/-- Link a statement. -/
def stmt (l : Linker) : Stmt → Option Stmt
  | .expr e => do return .expr (← l.expr e)
  | .declare i name declared init inBlock => do
    return .declare (← l.info i) name (← l.type? declared) (← l.expr? init) inBlock
  | .block i body => do return .block (← l.info i) (← stmts l body)
  | .branch i cond thenBody elseBody => do
    let elseBody ←
      match elseBody with
      | some body => some <$> stmts l body
      | none => some none
    return .branch (← l.info i) (← l.expr cond) (← stmts l thenBody) elseBody
  | .whileLoop i cond body => do return .whileLoop (← l.info i) (← l.expr cond) (← stmts l body)
  | .forLoop i init cond update body => do
    let init ←
      match init with
      | some s => some <$> stmt l s
      | none => some none
    return .forLoop (← l.info i) init (← l.expr? cond) (← l.exprs update) (← stmts l body)
  | .forEach i name declared items body => do
    return .forEach (← l.info i) name (← l.type? declared) (← l.expr items) (← stmts l body)
  | .returns i e => do return .returns (← l.info i) (← l.expr? e)
  | .nop i => do return .nop (← l.info i)

/-- Link statements in a row. -/
def stmts (l : Linker) : List Stmt → Option (List Stmt)
  | [] => some []
  | s :: ss => do return (← stmt l s) :: (← stmts l ss)

end

/-- Link a program. -/
def program (l : Linker) (p : Program) : Option Program := do
  return ⟨← l.stmts p.body, ← l.type p.egress, p.siteCount⟩

end Linker

end HostExpr
