import HostExpr.Number.Decimal

/-!
# Remainders of floating-point numbers

The remainder of a division that is truncated toward zero. It is computed exactly, on the integers that both
numbers are multiples of, and is always a floating-point number itself.
-/

namespace HostExpr

/-- The remainder of `a` by `b`, as a multiple of the power of two with the smaller exponent. -/
def Binary.remainder (a b : Binary) : Nat × Int :=
  let exponent := min a.exponent b.exponent
  let scaled (x : Binary) : Nat := x.mantissa * Nat.pow 2 (x.exponent - exponent).toNat
  (scaled a % scaled b, exponent)

/-- What is left of `x` after taking away the largest multiple of `y` that fits, with the sign of `x`. -/
def floatRemainder (x y : Float) : Float :=
  if x.isNaN || y.isNaN || x.isInf || y == 0 then 0.0 / 0.0
  else if y.isInf then x
  else
    let (rest, exponent) :=
      (Binary.ofBits x.abs.toBits.toNat).remainder (Binary.ofBits y.abs.toBits.toNat)
    let magnitude := (Float.ofNat rest).scaleB exponent
    -- the sign bit, not a comparison: a negative zero keeps its sign
    if x.toBits.toNat < Nat.pow 2 63 then magnitude else -magnitude

end HostExpr
