import HostExpr.Number.Integer
import HostExpr.Syntax.Tree
import HostExpr.Text.Quoted

/-!
# Outlines of syntax trees

A syntax tree as a text: every node in parentheses, with its span and then its parts. It shows all that a tree
holds, so that trees can be compared by reading.
-/

namespace HostExpr

/-- A span in an outline. -/
def Span.outline (s : Span) : String := "@" ++ natText s.start ++ "-" ++ natText s.stop

/-- Sixteen hexadecimal digits of the bits of a floating-point number. -/
def floatBits (d : Float) : String :=
  if d.isNaN then "nan"
  else
    let digits := Nat.toDigits 16 d.toBits.toNat
    String.ofList (List.replicate (16 - digits.length) '0' ++ digits)

/-- Texts with blanks between them. -/
def spaced (texts : List String) : String := " ".intercalate texts

/-- Texts in parentheses. -/
def parenthesized (texts : List String) : String := "(" ++ spaced texts ++ ")"

/-- The word for a logical operator. -/
def LogicOp.word : LogicOp → String
  | and => "and"
  | or => "or"

/-- The word for an operator in front of its operand. -/
def UnaryOp.word : UnaryOp → String
  | neg => "neg"
  | not => "not"

/-- The word for a step. -/
def StepOp.word : StepOp → String
  | incr => "incr"
  | decr => "decr"

namespace Syntax

/-- The kind of a constant, and the constant unless the kind tells it. -/
def Literal.outline : Literal → String × List String
  | null => ("null", [])
  | bool b => ("bool", [if b then "true" else "false"])
  | int i => ("int", [intText i.toInt])
  | long l => ("long", [intText l.toInt])
  | double d => ("double", [floatBits d])
  | str s => ("str", [withQuotes s])

/-- A node of an outline. -/
def outlineNode (head : String) (span : Span) (parts : List String) : String :=
  parenthesized ((head ++ span.outline) :: parts)

mutual

/-- The outline of a type. -/
def TypeExpr.outline : TypeExpr → String
  | .mk path args dims span =>
    let args :=
      match args with
      | [] => ""
      | args => "<" ++ ",".intercalate (typeOutlines args) ++ ">"
    path ++ args ++ String.join (List.replicate dims "[]") ++ span.outline

/-- The outlines of types in a row. -/
def typeOutlines : List TypeExpr → List String
  | [] => []
  | t :: ts => t.outline :: typeOutlines ts

end

mutual

/-- The outline of an expression. -/
def Expr.outline : Expr → String
  | .literal s v => outlineNode v.outline.1 s v.outline.2
  | .ident s name => outlineNode "id" s [name]
  | .field s receiver name => outlineNode "field" s [receiver.outline, name]
  | .methodCall s receiver name args => outlineNode "method" s (receiver.outline :: name :: outlines args)
  | .call s name args => outlineNode "call" s (name :: outlines args)
  | .index s receiver position => outlineNode "index" s [receiver.outline, position.outline]
  | .assign s target op value => outlineNode "assign" s [op.symbol, target.outline, value.outline]
  | .arith s op left right => outlineNode op.symbol s [left.outline, right.outline]
  | .logic s op left right => outlineNode op.word s [left.outline, right.outline]
  | .compare s op left right => outlineNode op.symbol s [left.outline, right.outline]
  | .unary s op operand => outlineNode op.word s [operand.outline]
  | .step s op target => outlineNode op.word s [target.outline]
  | .cast s type operand => outlineNode "cast" s [type.outline, operand.outline]
  | .conditional s cond a b => outlineNode "?" s [cond.outline, a.outline, b.outline]
  | .construct s type args => outlineNode "new" s (type.outline :: outlines args)
  | .newArray s type items => outlineNode "newarray" s (type.arrayOf.outline :: outlines items)
  | .newSized s type length => outlineNode "newsized" s [type.outline, length.outline]
  | .inlineArray s items => outlineNode "array" s (outlines items)
  | .inlineList s items => outlineNode "list" s (outlines items)
  | .inlineMap s entries => outlineNode "map" s (entryOutlines entries)

/-- The outlines of expressions in a row. -/
def outlines : List Expr → List String
  | [] => []
  | e :: es => e.outline :: outlines es

/-- The outlines of the entries of a map. -/
def entryOutlines : List (Expr × Expr) → List String
  | [] => []
  | (k, v) :: es => parenthesized [k.outline, v.outline] :: entryOutlines es

end

/-- The outline of a part that may be missing. -/
def optionalOutline {α : Type} (outline : α → String) : Option α → String
  | some a => outline a
  | none => "-"

/-- The outline of a declared name. -/
def Declarator.outline (d : Declarator) : String :=
  parenthesized [d.name ++ d.span.outline, optionalOutline Expr.outline d.init]

mutual

/-- The outline of a statement. -/
def Stmt.outline : Stmt → String
  | .expr e => e.outline
  | .declare type ds =>
    parenthesized ("declare" :: optionalOutline TypeExpr.outline type :: ds.map Declarator.outline)
  | .branch cond thenBody elseBody =>
    let elseText :=
      match elseBody with
      | some body => "[" ++ stmtsOutline body ++ "]"
      | none => "-"
    parenthesized ["if", cond.outline, "[" ++ stmtsOutline thenBody ++ "]", elseText]
  | .whileLoop cond body => parenthesized ["while", cond.outline, "[" ++ stmtsOutline body ++ "]"]
  | .forLoop init cond update body =>
    let initText :=
      match init with
      | some s => s.outline
      | none => "-"
    parenthesized ["for", initText, optionalOutline Expr.outline cond, parenthesized (outlines update),
      "[" ++ stmtsOutline body ++ "]"]
  | .forEach type name span items body =>
    parenthesized ["foreach", optionalOutline TypeExpr.outline type, name ++ span.outline, items.outline,
      "[" ++ stmtsOutline body ++ "]"]
  | .block body => parenthesized ["block", "[" ++ stmtsOutline body ++ "]"]
  | .returns value => parenthesized ["return", optionalOutline Expr.outline value]
  | .importPath path everything span =>
    parenthesized ["import", path ++ (if everything then ".*" else "") ++ span.outline]

/-- The outline of statements in a row. -/
def stmtsOutline : List Stmt → String
  | [] => ""
  | [s] => s.outline
  | s :: ss => s.outline ++ " " ++ stmtsOutline ss

end

end Syntax

end HostExpr
