import HostExpr.Execution.Operator
import Mathlib.Algebra.Order.Ring.Int

/-!
# Integer arithmetic

Ints and longs are words of 32 and 64 bits. Arithmetic on them is that of the integers, cut to the width of the wider
operand; two ints are computed with as longs, but what is cut off twice is the same as what is cut off once. Division
truncates toward zero. Only a division by zero fails: `ArithOp.apply_wraps`.
-/

namespace HostExpr

/-- An integer as an operand: an int or a long. -/
inductive Word
  | int (i : Int32)
  | long (l : Int64)
deriving DecidableEq, Repr

namespace Word

/-- The value that an integer is. -/
def value : Word → Value
  | int i => .int i
  | long l => .long l

/-- What an integer is worth. -/
def toInt : Word → Int
  | int i => i.toInt
  | long l => l.toInt

/-- How many bits an integer has. -/
def width : Word → Nat
  | int _ => 32
  | long _ => 64

/-- The last bits of an integer, as many as the wider one of two operands has. -/
def cut (l r : Word) (n : Int) : Word :=
  match l, r with
  | int _, int _ => int (Int32.ofInt n)
  | _, _ => long (Int64.ofInt n)

theorem width_cut (l r : Word) (n : Int) : (cut l r n).width = max l.width r.width := by
  cases l <;> cases r <;> rfl

theorem toInt_cut (l r : Word) (n : Int) : (cut l r n).toInt = n.bmod (2 ^ max l.width r.width) := by
  cases l with
  | int i =>
    cases r with
    | int j => exact Int32.toInt_ofInt
    | long k => exact Int64.toInt_ofInt
  | long i => cases r <;> exact Int64.toInt_ofInt

/-- A word has a value within its width. -/
theorem bounds (w : Word) : -(2 ^ (w.width - 1) : Int) ≤ w.toInt ∧ w.toInt < 2 ^ (w.width - 1) := by
  cases w with
  | int i => exact ⟨i.le_toInt, i.toInt_lt⟩
  | long l => exact ⟨l.le_toInt, l.toInt_lt⟩

end Word

/-- What an operator gives on integers of any size. Division truncates toward zero, and there is none by zero. -/
def ArithOp.unbounded? (op : ArithOp) (l r : Int) : Option Int :=
  match op with
  | add => some (l + r)
  | sub => some (l - r)
  | mul => some (l * r)
  | div => if r = 0 then none else some (l.tdiv r)
  | rem => if r = 0 then none else some (l.tmod r)

namespace ArithOp

theorem unbounded?_eq_none_iff {op : ArithOp} {l r : Int} :
    op.unbounded? l r = none ↔ (op = .div ∨ op = .rem) ∧ r = 0 := by
  cases op <;> simp [unbounded?]

/-- Arithmetic on longs is exact arithmetic of which the last 64 bits are kept. -/
theorem onInts?_eq (op : ArithOp) (l r : Int64) : op.onInts? l r = (op.unbounded? l.toInt r.toInt).map Int64.ofInt := by
  have zero : r = 0 ↔ r.toInt = 0 := Int64.toInt_inj.symm
  cases op with
  | add => simp [onInts?, unbounded?, Int64.ofInt_add]
  | sub => simp [onInts?, unbounded?, Int64.ofInt_sub]
  | mul => simp [onInts?, unbounded?, Int64.ofInt_mul]
  | div =>
    by_cases h : r = 0
    · simp [onInts?, unbounded?, h]
    · have h' : ¬ r.toInt = 0 := fun e => h (zero.2 e)
      simp only [onInts?, unbounded?, h, h', if_false, Option.map_some, Option.some.injEq]
      -- division rounds towards zero in both, and the one quotient that does not fit wraps in both
      rw [← Int64.toInt_inj, Int64.toInt_div, Int64.toInt_ofInt]
  | rem =>
    by_cases h : r = 0
    · simp [onInts?, unbounded?, h]
    · have h' : ¬ r.toInt = 0 := fun e => h (zero.2 e)
      simp only [onInts?, unbounded?, h, h', if_false, Option.map_some, Option.some.injEq]
      rw [← Int64.toInt_mod, Int64.ofInt_toInt]

/-- What is made of a result on longs is made of the exact result, if what is cut off does not matter to it. -/
theorem match_onInts?_eq (op : ArithOp) {l r : Int64} {a b : Int} (hl : l.toInt = a) (hr : r.toInt = b)
    {result : Int64 → Value} {cut : Int → Value} (cuts : ∀ n, result (Int64.ofInt n) = cut n) :
    (match op.onInts? l r with
      | some n => .ok (result n)
      | none => .error .divisionByZero : Except RuntimeError Value)
    = match op.unbounded? a b with
      | some n => .ok (cut n)
      | none => .error .divisionByZero := by
  rw [onInts?_eq, hl, hr]
  cases op.unbounded? a b with
  | none => rfl
  | some n => exact congrArg Except.ok (cuts n)

/-- Arithmetic on ints and longs is exact arithmetic, cut to the width of the wider operand. -/
theorem onNumbers_words (op : ArithOp) (cs : Classes) (l r : Word) : op.onNumbers cs l.value r.value =
    match op.unbounded? l.toInt r.toInt with
    | some n => .ok (Word.cut l r n).value
    | none => .error .divisionByZero := by
  cases l with
  | int i =>
    cases r with
    | int j =>
      -- what 64 bits cut off, 32 bits would have cut off as well
      have narrow (n : Int) : Value.int (Int64.ofInt n).toInt32 = .int (Int32.ofInt n) := by
        rw [Int64.toInt32_ofInt]
      exact op.match_onInts?_eq i.toInt_toInt64 j.toInt_toInt64 narrow
    | long k => exact op.match_onInts?_eq i.toInt_toInt64 rfl fun _ => rfl
  | long k =>
    cases r with
    | int j => exact op.match_onInts?_eq rfl j.toInt_toInt64 fun _ => rfl
    | long m => exact op.match_onInts?_eq rfl rfl fun _ => rfl

/-- An operator on integers gives what it gives on numbers, and leaves the store as it is. -/
theorem apply_words (op : ArithOp) (cs : Classes) (l r : Word) (s : Store) : op.apply cs l.value r.value s =
    match op.unbounded? l.toInt r.toInt with
    | some n => (.ok (Word.cut l r n).value, s)
    | none => (.error .divisionByZero, s) := by
  have textless : ¬ (op = add ∧ (l.value.isStr || r.value.isStr)) := by
    cases l <;> cases r <;> simp [Word.value, Value.isStr]
  unfold apply
  rw [if_neg textless, onNumbers_words]
  cases op.unbounded? l.toInt r.toInt <;> rfl

end ArithOp

namespace Word

variable {l r : Word} {n : Int} {w : Nat}

/-- An integer between zero and the value of a word survives being cut to at least the width of the word. -/
theorem bmod_eq_of_between (le : l.width ≤ w) (between : 0 ≤ n ∧ n ≤ l.toInt ∨ l.toInt ≤ n ∧ n ≤ 0) :
    n.bmod (2 ^ w) = n := by
  have bounds := l.bounds
  have wide : (2 : Int) ^ (l.width - 1) * 2 ≤ 2 ^ w := by
    have pos : 1 ≤ l.width := by cases l <;> simp [width]
    rw [← pow_succ, Nat.sub_add_cancel pos]
    exact pow_le_pow_right₀ (by decide) le
  apply Int.bmod_eq_of_le_mul_two <;> push_cast <;> omega

theorem toInt_bmod (le : l.width ≤ w) : l.toInt.bmod (2 ^ w) = l.toInt := by
  apply bmod_eq_of_between le
  omega

/-- A remainder is between zero and the dividend. -/
theorem tmod_between (l r : Int) : 0 ≤ l.tmod r ∧ l.tmod r ≤ l ∨ l ≤ l.tmod r ∧ l.tmod r ≤ 0 := by
  have le : (l.tmod r).natAbs ≤ l.natAbs := by
    rw [Int.natAbs_tmod]
    exact Nat.mod_le _ _
  rcases Int.le_total 0 l with nonneg | nonpos
  · have := Int.tmod_nonneg r nonneg
    omega
  · have := Int.tmod_nonneg r (Int.neg_nonneg_of_nonpos nonpos)
    rw [Int.neg_tmod] at this
    omega

/-- A remainder needs no cutting. -/
theorem toInt_cut_tmod (l r : Word) : (cut l r (l.toInt.tmod r.toInt)).toInt = l.toInt.tmod r.toInt :=
  (toInt_cut _ _ _).trans (bmod_eq_of_between (le_max_left _ _) (tmod_between _ _))

/-- Quotient times divisor and remainder make up the dividend, even if the quotient and the product had to be cut: the
bits that are lost are lost in the sum as well. -/
theorem cut_tdiv_tmod (l r : Word) :
    let q := cut l r (l.toInt.tdiv r.toInt)
    let m := cut l r (l.toInt.tmod r.toInt)
    let p := cut q r (q.toInt * r.toInt)
    let v := cut p m (p.toInt + m.toInt)
    v.width = max l.width r.width ∧ v.toInt = l.toInt := by
  intro q m p v
  have width_q : q.width = max l.width r.width := width_cut _ _ _
  have width_m : m.width = max l.width r.width := width_cut _ _ _
  have width_p : max q.width r.width = max l.width r.width := by omega
  have width_v : max p.width m.width = max l.width r.width := by
    rw [width_cut q r, width_p, width_m, max_self]
  have toInt_q : q.toInt = (l.toInt.tdiv r.toInt).bmod (2 ^ max l.width r.width) := toInt_cut _ _ _
  have toInt_m : m.toInt = l.toInt.tmod r.toInt := toInt_cut_tmod l r
  have toInt_p : p.toInt = (q.toInt * r.toInt).bmod (2 ^ max l.width r.width) := width_p ▸ toInt_cut _ _ _
  refine ⟨(width_cut _ _ _).trans width_v, ?_⟩
  -- all four results have the same width, so cutting in between can be left to the last of them
  calc v.toInt = (p.toInt + m.toInt).bmod (2 ^ max l.width r.width) := width_v ▸ toInt_cut _ _ _
    _ = (l.toInt.tdiv r.toInt * r.toInt + l.toInt.tmod r.toInt).bmod (2 ^ max l.width r.width) := by
      rw [toInt_p, toInt_q, toInt_m, Int.bmod_add_bmod, ← Int.bmod_add_bmod, Int.bmod_mul_bmod, Int.bmod_add_bmod]
    _ = l.toInt.bmod (2 ^ max l.width r.width) := by rw [Int.tdiv_mul_add_tmod]
    _ = l.toInt := toInt_bmod (le_max_left _ _)

end Word

/-- Integer arithmetic is two's complement arithmetic. Two ints give an int, and any others give a long: the exact
result, of which the last 32 or 64 bits are kept, with a sign. Division truncates toward zero. Whatever is divided by
whatever but zero, the quotient times the divisor and the remainder make up the dividend, and the remainder is smaller
than the divisor and has the sign of the dividend. The only failure is a division by zero. -/
theorem ArithOp.apply_wraps (cs : Classes) (l r : Word) (s : Store) :
    let w := max l.width r.width
    (∀ op n, ArithOp.unbounded? op l.toInt r.toInt = some n →
      ∃ v : Word, op.apply cs l.value r.value s = (.ok v.value, s) ∧ v.width = w ∧ v.toInt = n.bmod (2 ^ w)) ∧
    (∀ op e, (ArithOp.apply op cs l.value r.value s).1 = .error e ↔
      e = .divisionByZero ∧ (op = .div ∨ op = .rem) ∧ r.toInt = 0) ∧
    (r.toInt ≠ 0 → ∃ q m p v : Word,
      ArithOp.div.apply cs l.value r.value s = (.ok q.value, s) ∧
      ArithOp.rem.apply cs l.value r.value s = (.ok m.value, s) ∧
      ArithOp.mul.apply cs q.value r.value s = (.ok p.value, s) ∧
      ArithOp.add.apply cs p.value m.value s = (.ok v.value, s) ∧
      v.width = w ∧ v.toInt = l.toInt ∧
      (0 ≤ l.toInt → 0 ≤ m.toInt) ∧ (l.toInt ≤ 0 → m.toInt ≤ 0) ∧ m.toInt.natAbs < r.toInt.natAbs) := by
  intro w
  refine ⟨fun op n given => ?_, fun op e => ?_, fun nonzero => ?_⟩
  · rw [apply_words, given]
    exact ⟨_, rfl, Word.width_cut l r n, Word.toInt_cut l r n⟩
  · rw [apply_words, ← unbounded?_eq_none_iff]
    cases op.unbounded? l.toInt r.toInt with
    | some n => simp
    | none => simp [eq_comm]
  · have quotient : ArithOp.div.unbounded? l.toInt r.toInt = some (l.toInt.tdiv r.toInt) := if_neg nonzero
    have remainder : ArithOp.rem.unbounded? l.toInt r.toInt = some (l.toInt.tmod r.toInt) := if_neg nonzero
    -- the quotient and the remainder are cut to the width, and so are the product and the sum made of them
    let q := Word.cut l r (l.toInt.tdiv r.toInt)
    let m := Word.cut l r (l.toInt.tmod r.toInt)
    let p := Word.cut q r (q.toInt * r.toInt)
    let v := Word.cut p m (p.toInt + m.toInt)
    -- cutting commutes with products and sums, so that the cuts in between make no difference to the last one
    obtain ⟨width, whole⟩ : v.width = w ∧ v.toInt = l.toInt := Word.cut_tdiv_tmod l r
    have exact_m : m.toInt = l.toInt.tmod r.toInt := Word.toInt_cut_tmod l r
    have between := Word.tmod_between l.toInt r.toInt
    have smaller : (l.toInt.tmod r.toInt).natAbs < r.toInt.natAbs := by
      rw [Int.natAbs_tmod]
      exact Nat.mod_lt _ (Int.natAbs_pos.2 nonzero)
    refine ⟨q, m, p, v, ?_, ?_, ?_, ?_, width, whole, ?_⟩
    · rw [apply_words, quotient]
    · rw [apply_words, remainder]
    · exact apply_words .mul cs q r s
    · exact apply_words .add cs p m s
    · rw [exact_m]
      omega

/-- The smallest int has no opposite among the ints. -/
example : ArithOp.div.onNumbers .builtinOnly (.int Int32.minValue) (.int (-1)) = .ok (.int Int32.minValue) := rfl

end HostExpr
