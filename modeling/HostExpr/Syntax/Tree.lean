import HostExpr.Syntax.Operator
import HostExpr.Syntax.Span

/-!
# Syntax trees

What a source text says, before any name in it has a meaning. Every expression carries the span of source
text it was read from.
-/

namespace HostExpr.Syntax

/-- A type as it is written: a dotted path, type arguments, and the number of `[]` behind it. -/
inductive TypeExpr
  | mk (path : String) (args : List TypeExpr) (dims : Nat) (span : Span)
deriving Repr, Inhabited

namespace TypeExpr

def path : TypeExpr → String
  | mk p _ _ _ => p

def args : TypeExpr → List TypeExpr
  | mk _ as _ _ => as

def dims : TypeExpr → Nat
  | mk _ _ d _ => d

def span : TypeExpr → Span
  | mk _ _ _ s => s

/-- The type of arrays of a type, written with one `[]` more. -/
def arrayOf : TypeExpr → TypeExpr
  | mk p as d s => mk p as (d + 1) s

end TypeExpr

/-- A constant written in the source. -/
inductive Literal
  | null
  | bool (b : Bool)
  | int (i : Int32)
  | long (l : Int64)
  | double (d : Float)
  | str (s : String)
deriving DecidableEq, Repr, Inhabited

/-- An expression. -/
inductive Expr
  | literal (span : Span) (value : Literal)
  | ident (span : Span) (name : String)
  | field (span : Span) (receiver : Expr) (name : String)
  | methodCall (span : Span) (receiver : Expr) (name : String) (args : List Expr)
  | call (span : Span) (name : String) (args : List Expr)
  | index (span : Span) (receiver position : Expr)
  | assign (span : Span) (target : Expr) (op : AssignOp) (value : Expr)
  | arith (span : Span) (op : ArithOp) (left right : Expr)
  | logic (span : Span) (op : LogicOp) (left right : Expr)
  | compare (span : Span) (op : CompareOp) (left right : Expr)
  | unary (span : Span) (op : UnaryOp) (operand : Expr)
  | step (span : Span) (op : StepOp) (target : Expr)
  | cast (span : Span) (type : TypeExpr) (operand : Expr)
  | conditional (span : Span) (cond thenBranch elseBranch : Expr)
  | construct (span : Span) (type : TypeExpr) (args : List Expr)
  /-- An array of given items; the type is that of its elements. -/
  | newArray (span : Span) (type : TypeExpr) (items : List Expr)
  /-- An array of a given length; the type is that of its elements. -/
  | newSized (span : Span) (type : TypeExpr) (length : Expr)
  | inlineArray (span : Span) (items : List Expr)
  | inlineList (span : Span) (items : List Expr)
  | inlineMap (span : Span) (entries : List (Expr × Expr))
deriving Repr, Inhabited

/-- The source text an expression was read from. -/
def Expr.span : Expr → Span
  | literal s _ | ident s _ | field s _ _ | methodCall s _ _ _ | call s _ _ | index s _ _ | assign s _ _ _
  | arith s _ _ _ | logic s _ _ _ | compare s _ _ _ | unary s _ _ | step s _ _ | cast s _ _
  | conditional s _ _ _ | construct s _ _ | newArray s _ _ | newSized s _ _ | inlineArray s _
  | inlineList s _ | inlineMap s _ => s

/-- The names in a chain of member accesses that starts with a name. -/
def Expr.segments? : Expr → Option (List String)
  | ident _ name => some [name]
  | field _ receiver name => (segments? receiver).map (· ++ [name])
  | _ => none

/-- A name that is declared, with its initial value if it has one. -/
structure Declarator where
  name : String
  span : Span
  init : Option Expr
deriving Repr, Inhabited

/-- A statement. A declaration without a type has `none` for it. -/
inductive Stmt
  | expr (e : Expr)
  | declare (type : Option TypeExpr) (declarators : List Declarator)
  | branch (cond : Expr) (thenBody : List Stmt) (elseBody : Option (List Stmt))
  | whileLoop (cond : Expr) (body : List Stmt)
  | forLoop (init : Option Stmt) (cond : Option Expr) (update : List Expr) (body : List Stmt)
  | forEach (type : Option TypeExpr) (name : String) (span : Span) (items : Expr) (body : List Stmt)
  | block (body : List Stmt)
  | returns (value : Option Expr)
  | importPath (path : String) (everything : Bool) (span : Span)
deriving Repr, Inhabited

end HostExpr.Syntax
