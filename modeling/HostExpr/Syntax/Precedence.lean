import HostExpr.Syntax.Tree

/-!
# Operator precedence

An operation is read as a flat run of pieces: operands, and operators in front of, behind and between them.
`assemble` builds the tree. Operators behind an operand bind tightest, then those in front of it, then the
ones between two operands by their `power`; equal powers group to the left.
-/

namespace HostExpr.Syntax

/-- An operator in front of an operand. -/
inductive FrontOp
  | neg
  | not
  | cast (type : TypeExpr)
deriving Repr

/-- An operator behind an operand, with what it holds. -/
inductive BackOp
  | methodCall (name : String) (args : List Expr)
  | field (name : String)
  | index (position : Expr)
  | step (op : StepOp)
deriving Repr

/-- An operator between two operands. -/
inductive BetweenOp
  | logic (op : LogicOp)
  | compare (op : CompareOp)
  | arith (op : ArithOp)
deriving DecidableEq, Repr

/-- How tightly an operator between two operands binds. -/
def BetweenOp.power : BetweenOp → Nat
  | logic .or => 1
  | logic .and => 2
  | compare .eq | compare .ne => 3
  | compare _ => 4
  | arith .add | arith .sub => 5
  | arith _ => 6

/-- A piece of an operation. -/
inductive Piece
  | operand (e : Expr)
  | front (op : FrontOp) (span : Span)
  | back (op : BackOp) (span : Span)
  | between (op : BetweenOp)
deriving Repr

/-- The literal with its sign changed. The long just above the largest int becomes the smallest int, so that
`-2147483648` is an int like its neighbours. -/
def Literal.negate? : Literal → Option Literal
  | .int i => some (.int (-i))
  | .long l => if l = 2147483648 then some (.int (-2147483648)) else some (.long (-l))
  | .double d => some (.double (-d))
  | _ => none

/-- An operand with an operator in front of it. A minus sign in front of a number belongs to the number. -/
def FrontOp.apply (op : FrontOp) (opSpan : Span) (e : Expr) : Expr :=
  let span := opSpan.join e.span
  match op with
  | neg =>
    match e with
    | .literal _ value =>
      match value.negate? with
      | some negated => .literal span negated
      | none => .unary span .neg e
    | _ => .unary span .neg e
  | not => .unary span .not e
  | cast type => .cast span type e

/-- An operand with an operator behind it. -/
def BackOp.apply (op : BackOp) (opSpan : Span) (e : Expr) : Expr :=
  let span := e.span.join opSpan
  match op with
  | methodCall name args => .methodCall span e name args
  | field name => .field span e name
  | index position => .index span e position
  | step op => .step span op e

/-- Two operands with an operator between them. -/
def BetweenOp.apply (op : BetweenOp) (l r : Expr) : Expr :=
  let span := l.span.join r.span
  match op with
  | logic op => .logic span op l r
  | compare op => .compare span op l r
  | arith op => .arith span op l r

/-- Left operands that wait for their right one, innermost first. -/
abbrev Waiting := List (Expr × BetweenOp)

/-- Complete the waiting operations that bind at least as tightly as `power`, with `e` as right operand. -/
def Waiting.reduce (power : Nat) : Waiting → Expr → Waiting × Expr
  | [], e => ([], e)
  | (l, op) :: waiting, e =>
    -- of two operators of one power the left one is applied first
    if power ≤ op.power then reduce power waiting (op.apply l e) else ((l, op) :: waiting, e)

/-- Operators in front of an operand, innermost first, applied to it. -/
def applyFronts : List (FrontOp × Span) → Expr → Expr
  | [], e => e
  | (op, span) :: ops, e => applyFronts ops (op.apply span e)

mutual

/-- Assemble where an operand is due; `fronts` are the operators in front of it so far. -/
def assembleOperand (waiting : Waiting) (fronts : List (FrontOp × Span)) : List Piece → Option Expr
  | .front op span :: pieces => assembleOperand waiting ((op, span) :: fronts) pieces
  | .operand e :: pieces => assembleRest waiting fronts e pieces
  | _ => none

/-- Assemble behind the operand `e`. -/
def assembleRest (waiting : Waiting) (fronts : List (FrontOp × Span)) (e : Expr) :
    List Piece → Option Expr
  | [] => some (Waiting.reduce 0 waiting (applyFronts fronts e)).2
  -- operators behind an operand bind before those in front of it
  | .back op span :: pieces => assembleRest waiting fronts (op.apply span e) pieces
  | .between op :: pieces =>
    -- operators in front of an operand bind before those between operands
    let (waiting, l) := Waiting.reduce op.power waiting (applyFronts fronts e)
    assembleOperand ((l, op) :: waiting) [] pieces
  | _ => none

end

/-- The expression that a run of pieces spells. -/
def assemble (pieces : List Piece) : Option Expr := assembleOperand [] [] pieces

end HostExpr.Syntax
