import HostExpr.Number.Integer

/-!
# Decimal floating-point numbers

A finite number is written with the fewest digits that read back as the same number, always positionally and
always with a point. Reading rounds correctly; a number too large for the format reads as infinite.

A finite positive number is `mantissa · 2 ^ exponent`. The reals that round to it form an interval around it,
whose ends belong to it exactly when the mantissa is even. Distances are counted in quarters of the last
place, so that the ends are whole numbers also just above a power of two, where the gap below is half as wide.
-/

namespace HostExpr

/-- A positive number `mantissa · 2 ^ exponent`, as the floating-point format stores it. -/
structure Binary where
  mantissa : Nat
  exponent : Int
  /-- The gap to the next smaller number is half the gap to the next larger one. -/
  narrowBelow : Bool
deriving DecidableEq, Repr

namespace Binary

/-- The stored form of a finite positive number, from its bits without the sign. -/
def ofBits (bits : Nat) : Binary :=
  let fraction : Nat := bits % Nat.pow 2 52
  let biased : Nat := bits / Nat.pow 2 52
  -- a subnormal number has no leading one; below a power of two the numbers lie twice as dense
  if biased = 0 then ⟨fraction, -1074, false⟩
  else ⟨Nat.pow 2 52 + fraction, (biased : Int) - 1075, decide (fraction = 0 ∧ 1 < biased)⟩

/-- The number in quarters of its last place. -/
def quarters (b : Binary) : Nat := 4 * b.mantissa

/-- The lower end of the interval that rounds to the number, in quarters. -/
def low (b : Binary) : Nat := b.quarters - (if b.narrowBelow then 1 else 2)

/-- The upper end of the interval that rounds to the number, in quarters. -/
def high (b : Binary) : Nat := b.quarters + 2

/-- Numerator of a quarter of the last place, measured in units of `10 ^ grid`. -/
def scaleUp (b : Binary) (grid : Int) : Nat :=
  Nat.pow 2 (b.exponent - 2).toNat * Nat.pow 10 (-grid).toNat

/-- Denominator of a quarter of the last place, measured in units of `10 ^ grid`. -/
def scaleDown (b : Binary) (grid : Int) : Nat :=
  Nat.pow 2 (2 - b.exponent).toNat * Nat.pow 10 grid.toNat

/-- Whether `n · 10 ^ grid` rounds to the number. -/
def readsBack (b : Binary) (grid : Int) (n : Nat) : Bool :=
  let x := n * b.scaleDown grid
  let lo := b.low * b.scaleUp grid
  let hi := b.high * b.scaleUp grid
  -- the ends of the interval are halfway to the neighbours, and a tie goes to the even mantissa
  if b.mantissa % 2 = 0 then lo ≤ x && x ≤ hi else lo < x && x < hi

/-- Of the two neighbours of the number on the grid of step `10 ^ grid`, the one that reads back; the nearer
if both do, and the upper one of two equally near. -/
def onGrid? (b : Binary) (grid : Int) : Option Nat :=
  let up := b.scaleUp grid
  let down := b.scaleDown grid
  let below := b.quarters * up / down
  match b.readsBack grid below, b.readsBack grid (below + 1) with
  | true, true =>
    if 2 * (b.quarters * up - below * down) < down then some below else some (below + 1)
  | true, false => some below
  | false, true => some (below + 1)
  | false, false => none

/-- The least power of ten, counted from `start` downwards, that the number reaches. -/
def leadingFrom (b : Binary) : Nat → Int → Int
  | 0, e => e
  | fuel + 1, e =>
    if b.scaleDown e ≤ b.quarters * b.scaleUp e then e else leadingFrom b fuel (e - 1)

/-- The exponent of the leading decimal digit. A first guess from the binary length is never too small, and at
most three too large. -/
def leading (b : Binary) : Int :=
  let length : Int := b.mantissa.log2 + b.exponent
  leadingFrom b 4 (length * 30103 / 100000 + 2)

/-- The shortest decimal that reads back, as digits times a power of ten: grids of 1, 2, … 17 digits are tried
in turn. -/
def shortestFrom (b : Binary) (lead : Int) : Nat → Nat → Nat × Int
  | 0, _ => (0, 0)
  | fuel + 1, count =>
    let grid := lead - (count : Int) + 1
    match b.onGrid? grid with
    | some n => (n, grid)
    | none => shortestFrom b lead fuel (count + 1)

/-- The shortest decimal that reads back. -/
def shortest (b : Binary) : Nat × Int := b.shortestFrom b.leading 18 1

end Binary

/-! ## Writing -/

/-- `n · 10 ^ grid` in positional notation, with at least one digit on each side of the point. -/
def positional (n : Nat) (grid : Int) : List Char :=
  if 0 ≤ grid then decimalDigits (n * Nat.pow 10 grid.toNat) ++ ['.', '0']
  else
    let places := (-grid).toNat
    let whole := n / Nat.pow 10 places
    let part := decimalDigits (n % Nat.pow 10 places)
    let padded := List.replicate (places - part.length) '0' ++ part
    -- the digits may end in zeros if the grid is finer than the number needs
    let trimmed := (padded.reverse.dropWhile (· == '0')).reverse
    decimalDigits whole ++ '.' :: (if trimmed.isEmpty then ['0'] else trimmed)

/-- The text of a floating-point number. -/
def doubleText (x : Float) : List Char :=
  if x.isNaN then ['N', 'a', 'N']
  else
    let bits := x.toBits.toNat
    let sign := if bits / Nat.pow 2 63 = 1 then ['-'] else []
    let size := bits % Nat.pow 2 63
    if size = 2047 * Nat.pow 2 52 then sign ++ ['I', 'n', 'f', 'i', 'n', 'i', 't', 'y']
    else if size = 0 then sign ++ ['0', '.', '0']
    else
      let (n, grid) := (Binary.ofBits size).shortest
      sign ++ positional n grid

/-! ## Reading -/

/-- The number `digits · 10 ^ exponent`, rounded to the nearest; where the exponent alone decides, no power of
ten is computed. -/
def roundedDecimal (digits : List Char) (exponent : Int) : Float :=
  let digits := digits.dropWhile (· == '0')
  let lead := (digits.length : Int) + exponent
  -- the least number is about `10 ^ -324`, the greatest about `10 ^ 308`
  if digits.isEmpty || lead < -400 then 0
  else if 400 < lead then 1 / 0
  else
    let n := ofDigits digits
    if 0 ≤ exponent then Float.ofScientific n false exponent.toNat
    else Float.ofScientific n true (-exponent).toNat

/-- The exponent part of a decimal: nothing, or a mark and an integer. -/
def exponentPart? : List Char → Option Int
  | [] => some 0
  | c :: cs => if c = 'e' || c = 'E' then integer? cs else none

/-- A number without a sign: digits with an optional point among them, and an optional exponent. -/
def unsignedDecimal? (cs : List Char) : Option Float :=
  let whole := cs.takeWhile Char.isDigit
  let rest := cs.dropWhile Char.isDigit
  let (part, rest) :=
    match rest with
    | '.' :: rest => (rest.takeWhile Char.isDigit, rest.dropWhile Char.isDigit)
    | rest => ([], rest)
  if whole.isEmpty && part.isEmpty then none
  else (exponentPart? rest).map fun e => roundedDecimal (whole ++ part) (e - part.length)

/-- A number without a sign, or one of the words for an infinite number and for no number. -/
def unsignedDouble? (cs : List Char) : Option Float :=
  let lower := cs.map Char.toLower
  if lower = ['i', 'n', 'f'] || lower = ['i', 'n', 'f', 'i', 'n', 'i', 't', 'y'] then some (1 / 0)
  else if lower = ['n', 'a', 'n'] then some (0 / 0)
  else unsignedDecimal? cs

/-- A floating-point number in decimal. -/
def double? : List Char → Option Float
  | '-' :: cs => (unsignedDouble? cs).map (- ·)
  | '+' :: cs => unsignedDouble? cs
  | cs => unsignedDouble? cs

end HostExpr
