import HostExpr.Number.Remainder
import HostExpr.Syntax.Operator
import HostExpr.World.Conversion

/-!
# Operators

What the operators do with values. Numbers are brought to the wider of their types, `Integer < Long < Double`.
Integers are computed with as words of 64 bits and cut to 32 if both were ints. `+` joins texts, and `==` compares
a text with a number or truth value by what the text spells.
-/

namespace HostExpr

/-- An operator does not take its operands. -/
def invalidOperands (cs : Classes) (op : String) (left right : Value) : RuntimeError :=
  .invalidOperands op (left.typeName cs) (right.typeName cs)

/-! ## Arithmetic -/

/-- Integer arithmetic, wrapping around. Only a division by zero has no result. -/
def ArithOp.onInts? (op : ArithOp) (l r : Int64) : Option Int64 :=
  match op with
  | add => some (l + r)
  | sub => some (l - r)
  | mul => some (l * r)
  | div => if r = 0 then none else some (l / r)
  | rem => if r = 0 then none else some (l % r)

/-- Floating-point arithmetic. -/
def ArithOp.onFloats (op : ArithOp) (l r : Float) : Float :=
  match op with
  | add => l + r
  | sub => l - r
  | mul => l * r
  | div => l / r
  | rem => floatRemainder l r

def Value.isStr : Value → Bool
  | .str _ => true
  | _ => false

def Value.isDouble : Value → Bool
  | .double _ => true
  | _ => false

/-- Arithmetic on numbers. -/
def ArithOp.onNumbers (op : ArithOp) (cs : Classes) (left right : Value) : Except RuntimeError Value :=
  match left, right with
  | .int l, .int r =>
    match op.onInts? l.toInt64 r.toInt64 with
    | some n => .ok (.int n.toInt32)
    | none => .error .divisionByZero
  | left, right =>
    if left.isDouble || right.isDouble then
      match left.toFloat?, right.toFloat? with
      | some l, some r => .ok (.double (op.onFloats l r))
      | _, _ => .error (invalidOperands cs op.symbol left right)
    else
      match left.toInt64?, right.toInt64? with
      | some l, some r =>
        match op.onInts? l r with
        | some n => .ok (.long n)
        | none => .error .divisionByZero
      | _, _ => .error (invalidOperands cs op.symbol left right)

/-- Arithmetic on values. -/
def ArithOp.apply (op : ArithOp) (cs : Classes) (left right : Value) : Act Value :=
  -- a text on either side makes `+` join texts
  if op = add ∧ (left.isStr || right.isStr) then do
    let l ← Act.textOf cs left
    let r ← Act.textOf cs right
    return .str (l ++ r)
  else
    match op.onNumbers cs left right with
    | .ok v => return v
    | .error e => throw e

/-- A number with its sign changed. -/
def negate (cs : Classes) (v : Value) : Except RuntimeError Value :=
  match v with
  | .int i => .ok (.int (-i))
  | .long l => .ok (.long (-l))
  | .double d => .ok (.double (-d))
  | v => .error (invalidOperands cs "-" v v)

/-! ## Comparison -/

/-- Equality of numbers by what they are worth. -/
def equalNumbers? (left right : Value) : Option Bool :=
  match left.toInt64?, right.toInt64? with
  | some l, some r => some (l = r)
  | _, _ =>
    match left.toFloat?, right.toFloat? with
    | some l, some r => some (l == r)
    | _, _ => none

/-- Whether a text spells a truth value. -/
def World.spellsBool (w : World) (text : Value) (b : Bool) : Act Bool := fun s =>
  match w.convert text (.builtin .boolean) s with
  | (.ok v, s) => (.ok (v = .bool b), s)
  | (.error _, s) => (.ok false, s)

/-- Whether a text spells a number of a given worth. -/
def spellsNumber (text : String) (worth : Float) : Bool :=
  match double? (trimmed text.toList) with
  | some d => d == worth
  | none => false

/-- Equality as programs see it. -/
def World.looseEqual (w : World) (left right : Value) : Act Bool :=
  match equalNumbers? left right with
  | some answer => return answer
  | none =>
    match left, right with
    | .str s, .bool b => w.spellsBool (.str s) b
    | .bool b, .str s => w.spellsBool (.str s) b
    | .str s, v | v, .str s =>
      match v.toFloat? with
      | some worth => return spellsNumber s worth
      | none => Act.equal left right
    | _, _ => Act.equal left right

/-- The order of two floating-point numbers, if they have one. -/
def orderFloats? (l r : Float) : Option Ordering :=
  if l < r then some .lt else if l == r then some .eq else if r < l then some .gt else none

/-- The order of two values; numbers and texts have one among themselves. -/
def order? (left right : Value) : Option Ordering :=
  match left.toInt64?, right.toInt64? with
  | some l, some r => some (if l < r then .lt else if l = r then .eq else .gt)
  | _, _ =>
    match left.toFloat?, right.toFloat? with
    | some l, some r => orderFloats? l r
    | _, _ =>
      match left, right with
      | .str l, .str r => some (if l < r then .lt else if l = r then .eq else .gt)
      | _, _ => none

/-- Whether an ordering operator holds of operands in a given order. -/
def CompareOp.holds (op : CompareOp) (o : Ordering) : Bool :=
  match op with
  | lt => o = .lt
  | le => o ≠ .gt
  | gt => o = .gt
  | ge => o ≠ .lt
  | eq => o = .eq
  | ne => o ≠ .eq

/-- Compare values. Numbers without an order, where one is no number at all, compare as false. -/
def World.compare (w : World) (op : CompareOp) (left right : Value) : Act Bool := do
  match op with
  | .eq => w.looseEqual left right
  | .ne => return !(← w.looseEqual left right)
  | op =>
    match order? left right with
    | some o => return op.holds o
    | none =>
      -- two numbers without an order: one is a NaN
      if left.isNumeric && right.isNumeric then return false
      else throw (invalidOperands w.classes op.symbol left right)

end HostExpr
