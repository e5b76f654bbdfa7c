/-!
# Decimal integers

Reading and writing integers in decimal. Reading takes an optional sign and at least one ASCII digit, and
nothing else. What is written reads back: `integer?_integerText` for all integers, `int32?_integerText` and
`int64?_integerText` for words.
-/

namespace HostExpr

/-- The value of a decimal digit. -/
def digitValue (c : Char) : Nat := c.toNat - '0'.toNat

/-- The character of a digit below ten. -/
def digitChar (d : Nat) : Char := Char.ofNat ('0'.toNat + d)

/-- The last `fuel + 1` decimal digits of a number, or all of them if it has fewer. -/
def lastDigits : Nat → Nat → List Char
  | 0, n => [digitChar (n % 10)]
  | fuel + 1, n => if n < 10 then [digitChar n] else lastDigits fuel (n / 10) ++ [digitChar (n % 10)]

/-- The decimal digits of a number, most significant first; `0` has one digit. A number has no more digits than
its own value, so none is lost. -/
def decimalDigits (n : Nat) : List Char := lastDigits n n

/-- The number that a run of digits denotes, the most significant first. -/
def ofDigits (cs : List Char) : Nat := cs.foldl (fun n c => n * 10 + digitValue c) 0

/-- A number in decimal; nothing but digits is read, and at least one. -/
def natural? (cs : List Char) : Option Nat :=
  if cs.isEmpty || !cs.all Char.isDigit then none else some (ofDigits cs)

/-- An integer in decimal, with an optional sign. -/
def integer? : List Char → Option Int
  | '-' :: cs => (natural? cs).map fun n => -(n : Int)
  | '+' :: cs => (natural? cs).map Int.ofNat
  | cs => (natural? cs).map Int.ofNat

/-- The decimal text of an integer. -/
def integerText : Int → List Char
  | .ofNat n => decimalDigits n
  | .negSucc n => '-' :: decimalDigits (n + 1)

/-- A 32-bit integer in decimal; one out of range is refused. -/
def int32? (cs : List Char) : Option Int32 :=
  (integer? cs).bind fun n => if (Int32.ofInt n).toInt = n then some (Int32.ofInt n) else none

/-- A 64-bit integer in decimal; one out of range is refused. -/
def int64? (cs : List Char) : Option Int64 :=
  (integer? cs).bind fun n => if (Int64.ofInt n).toInt = n then some (Int64.ofInt n) else none

/-- The text of an integer. -/
def intText (n : Int) : String := String.ofList (integerText n)

/-- The text of a count. -/
def natText (n : Nat) : String := String.ofList (decimalDigits n)

/-! ## What is written reads back -/

/-- A digit below ten reads back. -/
theorem digitValue_digitChar {d : Nat} (h : d < 10) : digitValue (digitChar d) = d := by
  have : ∀ d : Fin 10, digitValue (digitChar d.1) = d.1 := by decide
  exact this ⟨d, h⟩

/-- A digit below ten is written as a digit. -/
theorem isDigit_digitChar {d : Nat} (h : d < 10) : (digitChar d).isDigit = true := by
  have : ∀ d : Fin 10, (digitChar d.1).isDigit = true := by decide
  exact this ⟨d, h⟩

/-- A further digit at the end. -/
theorem ofDigits_concat (cs : List Char) (c : Char) : ofDigits (cs ++ [c]) = ofDigits cs * 10 + digitValue c := by
  simp [ofDigits]

/-- The last digits of a number denote it if there are enough of them. -/
theorem ofDigits_lastDigits {fuel n : Nat} (h : n ≤ fuel) : ofDigits (lastDigits fuel n) = n := by
  induction fuel generalizing n with
  | zero =>
    obtain rfl : n = 0 := by omega
    decide
  | succ fuel ih =>
    unfold lastDigits
    split
    · rename_i hn
      simpa [ofDigits] using digitValue_digitChar hn
    · rw [ofDigits_concat, ih (by omega), digitValue_digitChar (by omega)]
      omega

/-- Nothing but digits is written. -/
theorem isDigit_of_mem_lastDigits {fuel n : Nat} {c : Char} (h : c ∈ lastDigits fuel n) : c.isDigit = true := by
  have hd : (digitChar (n % 10)).isDigit = true := isDigit_digitChar (Nat.mod_lt n (by decide))
  induction fuel generalizing n with
  | zero =>
    obtain rfl := List.mem_singleton.1 h
    exact hd
  | succ fuel ih =>
    unfold lastDigits at h
    split at h
    · rename_i hn
      obtain rfl := List.mem_singleton.1 h
      exact isDigit_digitChar hn
    · rcases List.mem_append.1 h with h | h
      · exact ih h (isDigit_digitChar (Nat.mod_lt _ (by decide)))
      · obtain rfl := List.mem_singleton.1 h
        exact hd

/-- At least one digit is written. -/
theorem lastDigits_ne_nil (fuel n : Nat) : lastDigits fuel n ≠ [] := by
  cases fuel with
  | zero => simp [lastDigits]
  | succ fuel =>
    unfold lastDigits
    split <;> simp

/-- The decimal text of a number reads back. -/
@[simp]
theorem natural?_decimalDigits (n : Nat) : natural? (decimalDigits n) = some n := by
  have hall : ∀ c ∈ lastDigits n n, c.isDigit = true := fun _ h => isDigit_of_mem_lastDigits h
  simpa [natural?, decimalDigits, ofDigits_lastDigits (Nat.le_refl n), lastDigits_ne_nil] using hall

/-- A text that starts with a digit has no sign. -/
theorem integer?_of_isDigit {c : Char} (h : c.isDigit = true) (cs : List Char) :
    integer? (c :: cs) = (natural? (c :: cs)).map Int.ofNat := by
  have hm : c ≠ '-' := by rintro rfl; simp at h
  have hp : c ≠ '+' := by rintro rfl; simp at h
  unfold integer?
  split <;> simp_all

/-- The decimal text of an integer reads back. -/
@[simp]
theorem integer?_integerText (n : Int) : integer? (integerText n) = some n := by
  cases n with
  | ofNat n =>
    have hn := natural?_decimalDigits n
    match hd : decimalDigits n with
    | [] => exact absurd hd (lastDigits_ne_nil n n)
    | c :: cs =>
      have hmem : c ∈ decimalDigits n := by simp [hd]
      have hc : c.isDigit = true := isDigit_of_mem_lastDigits hmem
      rw [hd] at hn
      simp [integerText, hd, integer?_of_isDigit hc, hn]
  | negSucc n => simp [integerText, integer?, Int.negSucc_eq]

/-- The decimal text of a word of 32 bits reads back. -/
@[simp]
theorem int32?_integerText (i : Int32) : int32? (integerText i.toInt) = some i := by
  simp [int32?]

/-- The decimal text of a word of 64 bits reads back. -/
@[simp]
theorem int64?_integerText (i : Int64) : int64? (integerText i.toInt) = some i := by
  simp [int64?]

end HostExpr
