import HostExpr.Member.Site
import HostExpr.Syntax.Tree

/-!
# Typed trees

What a program means, once every name in it has been resolved. Each node has a static type and the span of
source text it stands for; each access to a member has a call site of its own, known by a number.
-/

namespace HostExpr

/-- The value of a constant written in the source. -/
def Syntax.Literal.toValue : Syntax.Literal → Value
  | null => .null
  | bool b => .bool b
  | int i => .int i
  | long l => .long l
  | double d => .double d
  | str s => .str s

namespace Typed

/-- The static type of a node, `Object` where it is not known, and its span. -/
structure Info where
  type : Ty
  span : Span
deriving DecidableEq, Inhabited

/-- A typed expression. -/
inductive Expr
  | constant (info : Info) (value : Syntax.Literal)
  /-- A declared variable. -/
  | declared (info : Info) (name : String)
  /-- A value that the caller supplies, or else a member of the root. -/
  | input (info : Info) (name : String) (site : Nat)
  /-- The root. -/
  | this (info : Info)
  | classRef (info : Info) (cls : ClassRef)
  | staticField (info : Info) (cls : ClassRef) (field : String)
  | property (info : Info) (receiver : Expr) (name : String) (site : Nat)
  | methodCall (info : Info) (receiver : Expr) (name : String) (args : List Expr) (site : Nat)
  /-- A call of a host function, known by its place among them. -/
  | functionCall (info : Info) (function : Nat) (args : List Expr)
  /-- A conversion to the class that the target evaluates to. -/
  | convert (info : Info) (value target : Expr)
  | index (info : Info) (receiver position : Expr) (site : Nat)
  /-- An assignment; what is stored is converted to `stored` first, if that is known. -/
  | assign (info : Info) (target : Expr) (op : AssignOp) (value : Expr) (stored : Option Ty)
  | arith (info : Info) (op : ArithOp) (left right : Expr)
  | logic (info : Info) (op : LogicOp) (left right : Expr)
  | compare (info : Info) (op : CompareOp) (left right : Expr)
  | unary (info : Info) (op : UnaryOp) (operand : Expr)
  | step (info : Info) (op : StepOp) (target : Expr)
  | cast (info : Info) (type : Ty) (operand : Expr)
  | conditional (info : Info) (cond thenBranch elseBranch : Expr)
  /-- A new instance, by the constructor at a place if it is known already. -/
  | construct (info : Info) (cls : ClassRef) (args : List Expr) (chosen : Option Nat)
  | newArray (info : Info) (item : Ty) (items : List Expr)
  | newSized (info : Info) (item : Ty) (length : Expr)
  | inlineList (info : Info) (items : List Expr)
  | inlineMap (info : Info) (entries : List (Expr × Expr))
deriving Inhabited

namespace Expr

/-- The type and span of an expression. -/
def info : Expr → Info
  | constant i _ | declared i _ | input i _ _ | this i | classRef i _ | staticField i _ _ | property i _ _ _
  | methodCall i _ _ _ _ | functionCall i _ _ | convert i _ _ | index i _ _ _ | assign i _ _ _ _ | arith i _ _ _
  | logic i _ _ _ | compare i _ _ _ | unary i _ _ | step i _ _ | cast i _ _ | conditional i _ _ _
  | construct i _ _ _ | newArray i _ _ | newSized i _ _ | inlineList i _ | inlineMap i _ => i

/-- The static type of an expression. -/
def type (e : Expr) : Ty := e.info.type

/-- The span of an expression. -/
def span (e : Expr) : Span := e.info.span

/-- Whether the expression can stand on the left of an assignment. -/
def isAssignable : Expr → Bool
  | declared .. | input .. | property .. | index .. => true
  | _ => false

/-- The class that an expression stands for, if it is known to evaluate to a class. -/
def classMeant? : Expr → Option ClassRef
  | classRef _ c => some c
  | e =>
    match e.type with
    | .mk (.builtin .cls) (t :: _) => if t.isDynamic then none else some t.cls
    | _ => none

mutual

/-- The call sites in an expression, each with the member it accesses. -/
def accesses : Expr → List (Nat × Member)
  | constant .. | declared .. | this _ | classRef .. | staticField .. => []
  | input _ name site => [(site, .property name)]
  | property _ receiver name site => (site, .property name) :: receiver.accesses
  | methodCall _ receiver name args site =>
    (site, .method name args.length) :: (receiver.accesses ++ accessesAll args)
  | index _ receiver position site => (site, .index) :: (receiver.accesses ++ position.accesses)
  | functionCall _ _ args | construct _ _ args _ | newArray _ _ args | inlineList _ args => accessesAll args
  | convert _ a b | assign _ a _ b _ | arith _ _ a b | logic _ _ a b | compare _ _ a b =>
    a.accesses ++ b.accesses
  | unary _ _ e | step _ _ e | cast _ _ e | newSized _ _ e => e.accesses
  | conditional _ c a b => c.accesses ++ a.accesses ++ b.accesses
  | inlineMap _ entries => accessesEntries entries

/-- The call sites in a row of expressions. -/
def accessesAll : List Expr → List (Nat × Member)
  | [] => []
  | e :: es => e.accesses ++ accessesAll es

/-- The call sites in the entries of a map. -/
def accessesEntries : List (Expr × Expr) → List (Nat × Member)
  | [] => []
  | (k, v) :: es => k.accesses ++ v.accesses ++ accessesEntries es

end

end Expr

/-- A typed statement. -/
inductive Stmt
  | expr (e : Expr)
  /-- A declaration, kept in the innermost block if it is `inBlock`, and otherwise among the caller's bindings. -/
  | declare (info : Info) (name : String) (declared : Option Ty) (init : Option Expr) (inBlock : Bool)
  | block (info : Info) (body : List Stmt)
  | branch (info : Info) (cond : Expr) (thenBody : List Stmt) (elseBody : Option (List Stmt))
  | whileLoop (info : Info) (cond : Expr) (body : List Stmt)
  | forLoop (info : Info) (init : Option Stmt) (cond : Option Expr) (update : List Expr) (body : List Stmt)
  | forEach (info : Info) (name : String) (declared : Option Ty) (items : Expr) (body : List Stmt)
  | returns (info : Info) (value : Option Expr)
  /-- A statement without effect. -/
  | nop (info : Info)
deriving Inhabited

namespace Stmt

/-- The type and span of a statement. -/
def info : Stmt → Info
  | expr e => e.info
  | declare i _ _ _ _ | block i _ | branch i _ _ _ | whileLoop i _ _ | forLoop i _ _ _ _ | forEach i _ _ _ _
  | returns i _ | nop i => i

/-- The type of the value of a statement. -/
def type (s : Stmt) : Ty := s.info.type

mutual

/-- The call sites in a statement. -/
def accesses : Stmt → List (Nat × Member)
  | expr e => e.accesses
  | declare _ _ _ init _ | returns _ init => (init.map Expr.accesses).getD []
  | block _ body => accessesAll body
  | branch _ cond thenBody elseBody =>
    cond.accesses ++ accessesAll thenBody ++
      match elseBody with
      | some body => accessesAll body
      | none => []
  | whileLoop _ cond body => cond.accesses ++ accessesAll body
  | forLoop _ init cond update body =>
    let first :=
      match init with
      | some s => accesses s
      | none => []
    first ++ (cond.map Expr.accesses).getD [] ++ Expr.accessesAll update ++ accessesAll body
  | forEach _ _ _ items body => items.accesses ++ accessesAll body
  | nop _ => []

/-- The call sites in a row of statements. -/
def accessesAll : List Stmt → List (Nat × Member)
  | [] => []
  | s :: ss => s.accesses ++ accessesAll ss

end

end Stmt

/-- A typed program: its statements, the type of what it evaluates to, and the number of its call sites. -/
structure Program where
  body : List Stmt
  egress : Ty
  siteCount : Nat
deriving Inhabited

/-- The member that the call site of a number accesses; numbers without a site are never used. -/
def Program.memberAt (p : Program) (site : Nat) : Member :=
  ((Stmt.accessesAll p.body).lookup site).getD (.property "")

/-- The call sites of a program, fresh, in the order of their numbers. -/
def Program.sites (p : Program) (strategy : Option Strategy) : List Site :=
  (List.range p.siteCount).map fun i => .fresh (p.memberAt i) strategy

end Typed

end HostExpr
