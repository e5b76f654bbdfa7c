/-!
# Operators

The operators of the language, with the text each is written as.
-/

namespace HostExpr

/-- Arithmetic operators; `+` also joins texts. -/
inductive ArithOp
  | add
  | sub
  | mul
  | div
  | rem
deriving DecidableEq, Repr

/-- The text of an arithmetic operator. -/
def ArithOp.symbol : ArithOp → String
  | add => "+"
  | sub => "-"
  | mul => "*"
  | div => "/"
  | rem => "%"

/-- Operators that evaluate their right operand only if they need it. -/
inductive LogicOp
  | and
  | or
deriving DecidableEq, Repr

/-- Comparison operators. -/
inductive CompareOp
  | eq
  | ne
  | lt
  | le
  | gt
  | ge
deriving DecidableEq, Repr

/-- The text of a comparison operator. -/
def CompareOp.symbol : CompareOp → String
  | eq => "=="
  | ne => "!="
  | lt => "<"
  | le => "<="
  | gt => ">"
  | ge => ">="

/-- Comparison for equality, or for order. -/
def CompareOp.isEquality : CompareOp → Bool
  | eq | ne => true
  | _ => false

/-- Operators with one operand in front of it. -/
inductive UnaryOp
  | neg
  | not
deriving DecidableEq, Repr

/-- A plain assignment, or one that combines the old value with the new. -/
inductive AssignOp
  | plain
  | compound (op : ArithOp)
deriving DecidableEq, Repr

/-- The text of an assignment operator. -/
def AssignOp.symbol : AssignOp → String
  | plain => "="
  | compound op => op.symbol ++ "="

/-- Counting a target up or down by one. -/
inductive StepOp
  | incr
  | decr
deriving DecidableEq, Repr

/-- The text of a step. -/
def StepOp.symbol : StepOp → String
  | incr => "++"
  | decr => "--"

/-- What a step adds to its target. -/
def StepOp.arith : StepOp → ArithOp
  | incr => .add
  | decr => .sub

end HostExpr
