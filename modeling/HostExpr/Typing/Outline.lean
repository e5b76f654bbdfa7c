import HostExpr.Syntax.Outline
import HostExpr.Type.Text
import HostExpr.Typing.Tree
import HostExpr.World.Basic

/-!
# Outlines of typed trees

A typed tree as a text: every node in parentheses, with what it is, its type and span, and then its parts in the
order of evaluation.
-/

namespace HostExpr

namespace World

open Typed
open Syntax (optionalOutline)

/-- A type in an outline. -/
def typeOutline (w : World) (t : Ty) : String := t.text w.classes

/-- A type that may be missing. -/
def typeOutline? (w : World) : Option Ty → String := optionalOutline w.typeOutline

/-- The number of a call site in an outline. -/
def siteOutline (site : Nat) : String := "#" ++ natText site

/-- The name of a host function. -/
def functionName (w : World) (function : Nat) : String :=
  ((w.functions[function]?).map Function.name).getD ""

/-- A node of an outline: what it is, its type and span, and its parts. -/
def outlineNode (w : World) (i : Info) (head parts : List String) : String :=
  parenthesized (head ++ (":" ++ w.typeOutline i.type ++ i.span.outline) :: parts)

mutual

/-- The outline of a typed expression. -/
def exprOutline (w : World) : Expr → String
  | .constant i v => w.outlineNode i (v.outline.1 :: v.outline.2) []
  | .declared i name => w.outlineNode i ["local", name] []
  | .input i name site => w.outlineNode i ["input", name, siteOutline site] []
  | .this i => w.outlineNode i ["this"] []
  | .classRef i c => w.outlineNode i ["classref", w.classes.qualifiedName c] []
  | .staticField i c field => w.outlineNode i ["static", w.classes.qualifiedName c, field] []
  | .property i receiver name site =>
    w.outlineNode i ["property", name, siteOutline site] [exprOutline w receiver]
  | .methodCall i receiver name args site =>
    w.outlineNode i ["method", name, siteOutline site] (exprOutline w receiver :: exprOutlines w args)
  | .functionCall i f args => w.outlineNode i ["function", w.functionName f] (exprOutlines w args)
  | .convert i v target => w.outlineNode i ["convert"] [exprOutline w v, exprOutline w target]
  | .index i receiver position site =>
    w.outlineNode i ["index", siteOutline site] [exprOutline w receiver, exprOutline w position]
  | .assign i target op v stored =>
    w.outlineNode i ["assign", op.symbol, w.typeOutline? stored] [exprOutline w target, exprOutline w v]
  | .arith i op left right => w.outlineNode i [op.symbol] [exprOutline w left, exprOutline w right]
  | .logic i op left right => w.outlineNode i [op.word] [exprOutline w left, exprOutline w right]
  | .compare i op left right => w.outlineNode i [op.symbol] [exprOutline w left, exprOutline w right]
  | .unary i op e => w.outlineNode i [op.word] [exprOutline w e]
  | .step i op e => w.outlineNode i [op.word] [exprOutline w e]
  | .cast i t e => w.outlineNode i ["cast", w.typeOutline t] [exprOutline w e]
  | .conditional i c a b => w.outlineNode i ["?"] [exprOutline w c, exprOutline w a, exprOutline w b]
  | .construct i c args chosen =>
    w.outlineNode i ["new", w.classes.qualifiedName c, optionalOutline natText chosen] (exprOutlines w args)
  | .newArray i t items => w.outlineNode i ["newarray", w.typeOutline t] (exprOutlines w items)
  | .newSized i t e => w.outlineNode i ["newsized", w.typeOutline t] [exprOutline w e]
  | .inlineList i items => w.outlineNode i ["list"] (exprOutlines w items)
  | .inlineMap i entries => w.outlineNode i ["map"] (entryOutlines w entries)

/-- The outlines of typed expressions in a row. -/
def exprOutlines (w : World) : List Expr → List String
  | [] => []
  | e :: es => exprOutline w e :: exprOutlines w es

/-- The outlines of the keys and values of a map. -/
def entryOutlines (w : World) : List (Expr × Expr) → List String
  | [] => []
  | (k, v) :: es => exprOutline w k :: exprOutline w v :: entryOutlines w es

end

/-- The outline of a typed expression that may be missing. -/
def exprOutline? (w : World) (e : Option Expr) : List String := e.toList.map w.exprOutline

/-- One for a part that is there. -/
def presence {α : Type} (a : Option α) : String := if a.isSome then "1" else "0"

mutual

/-- The outline of a typed statement. -/
def stmtOutline (w : World) : Stmt → String
  | .expr e => w.exprOutline e
  | .declare i name declared init inBlock =>
    let place := if inBlock then "scoped" else "top"
    w.outlineNode i ["declare", name, w.typeOutline? declared, place] (w.exprOutline? init)
  | .block i body => w.outlineNode i ["block"] (stmtOutlines w body)
  | .branch i cond thenBody elseBody =>
    let (elseCount, elseParts) :=
      match elseBody with
      | some body => (natText body.length, stmtOutlines w body)
      | none => ("-", [])
    w.outlineNode i ["if", natText thenBody.length, elseCount]
      (w.exprOutline cond :: (stmtOutlines w thenBody ++ elseParts))
  | .whileLoop i cond body => w.outlineNode i ["while"] (w.exprOutline cond :: stmtOutlines w body)
  | .forLoop i init cond update body =>
    let first :=
      match init with
      | some s => [stmtOutline w s]
      | none => []
    w.outlineNode i ["for", presence init, presence cond, natText update.length]
      (first ++ w.exprOutline? cond ++ w.exprOutlines update ++ stmtOutlines w body)
  | .forEach i name declared items body =>
    w.outlineNode i ["foreach", name, w.typeOutline? declared] (w.exprOutline items :: stmtOutlines w body)
  | .returns i e => w.outlineNode i ["return"] (w.exprOutline? e)
  | .nop i => w.outlineNode i ["nop"] []

/-- The outlines of typed statements in a row. -/
def stmtOutlines (w : World) : List Stmt → List String
  | [] => []
  | s :: ss => stmtOutline w s :: stmtOutlines w ss

end

end World

end HostExpr
