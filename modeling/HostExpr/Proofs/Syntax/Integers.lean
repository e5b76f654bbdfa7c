import HostExpr.Proofs.Syntax.Literals

/-!
# Integer literals

An integer in decimal, with any number of zeros in front of its digits, is an int where it fits one and else a long;
behind its digits the letter `L` asks for a long. A minus sign belongs to the literal, but it is applied to what the
digits have been read as: the smallest int, whose digits are read as a long, is turned back into an int by its value
alone, so that it is an int also where a letter asks for a long.
-/

namespace HostExpr

open Pattern

variable {fuel o : Nat} {ds : List Char}

/-! ## The tokens -/

/-- What an integer may end in: nothing, or the letter that asks for a long. -/
def integerEnds : List (List Char) := [[], ['L'], ['l']]

/-- A pattern that nothing an integer may end in goes on with. -/
def Pattern.stopsIntegers (p : Pattern) : Bool := p.refused [] true && p.refused ['L'] false && p.refused ['l'] false

theorem stops_of_stopsIntegers {p : Pattern} (h : p.stopsIntegers) {s : List Char} (hs : s ∈ integerEnds) :
    p.Stops fuel s := by
  simp only [Pattern.stopsIntegers, Bool.and_eq_true] at h
  obtain ⟨⟨nothing, upper⟩, lower⟩ := h
  simp only [integerEnds, List.mem_cons, List.not_mem_nil, or_false] at hs
  rcases hs with rfl | rfl | rfl
  · exact stops_at_end nothing
  · exact stops_at ['L'] upper []
  · exact stops_at ['l'] lower []

section

variable (nonempty : ds ≠ []) (digit : ∀ d ∈ ds, d.isDigit = true) (enough : ds.length ≤ fuel)

include nonempty digit enough

theorem passes_digits_integer {s : List Char} (hs : s ∈ integerEnds) : digits.Passes fuel ds s :=
  passes_digits nonempty digit (stops_of_stopsIntegers (by decide) hs) enough

/-- No integer is a floating-point number: no point, exponent or mark follows its digits. -/
theorem stops_double {s : List Char} (hs : s ∈ integerEnds) : Rule.double.pattern.Stops fuel (ds ++ s) := by
  have run := passes_digits_integer nonempty digit enough hs
  have point : (text ['.']).Stops fuel s := stops_of_stopsIntegers (by decide) hs
  have power : exponent.Stops fuel s := stops_of_stopsIntegers (by decide) hs
  have mark : doubleMark.Stops fuel s := stops_of_stopsIntegers (by decide) hs
  exact .seq_left (.alt (run.seq_stops point.seq_left) (.alt (run.seq_stops power.seq_left) (run.seq_stops mark)))

/-- Digits alone are an integer. -/
theorem matches_integer (o : Nat) :
    literal.Matches (fuel + 1) .building ⟨ds, o⟩ (.behind o ds []) [.mk .integer ⟨ds, o⟩ (.behind o ds []) []] := by
  have unmarked : ([] : List Char) ∈ integerEnds := .head _
  have run := passes_digits_integer nonempty digit enough unmarked
  have token : Rule.integer.pattern.Passes fuel ds [] := run.notAhead (stops_at_end (by decide))
  have noDouble := stops_double nonempty digit enough unmarked
  have noLong : Rule.long.pattern.Stops fuel (ds ++ []) := run.seq_stops (stops_at_end (by decide))
  simp only [Passes, Stops, List.append_nil] at token noDouble noLong
  exact .alt_right (fails_token rfl (noDouble o)) (.alt_right (fails_token rfl (noLong o))
    (.alt_left (matches_token rfl rfl (token o))))

/-- Digits with the letter behind them are a long. -/
theorem matches_long {mark : Char} (h : mark = 'L' ∨ mark = 'l') (o : Nat) :
    literal.Matches (fuel + 1) .building ⟨ds ++ [mark], o⟩ (.behind o (ds ++ [mark]) [])
      [.mk .long ⟨ds ++ [mark], o⟩ (.behind o (ds ++ [mark]) []) []] := by
  have marked : [mark] ∈ integerEnds := by rcases h with rfl | rfl <;> decide
  have run : digits.Passes fuel ds ([mark] ++ []) := passes_digits_integer nonempty digit enough marked
  have letter : (first [text ['L'], text ['l']]).Passes fuel [mark] [] := by
    rcases h with rfl | rfl
    · exact .alt_left (passes_text ['L'] [])
    · exact .alt_right (stops_at ['l'] (by decide) []) (passes_text ['l'] [])
  have token : Rule.long.pattern.Passes fuel (ds ++ [mark]) [] :=
    run.seq (letter.notAhead (stops_at_end (by decide)))
  have noDouble := stops_double nonempty digit enough marked
  simp only [Passes, List.append_nil] at token
  exact .alt_right (fails_token rfl (noDouble o)) (.alt_left (matches_token rfl rfl (token o)))

end

/-! ## What digits denote -/

theorem natural?_of_digits (nonempty : ds ≠ []) (digit : ∀ d ∈ ds, d.isDigit = true) :
    natural? ds = some (ofDigits ds) := by
  have all : ds.all Char.isDigit = true := List.all_eq_true.2 digit
  simp [natural?, nonempty, all]

theorem integer?_of_digits (nonempty : ds ≠ []) (digit : ∀ d ∈ ds, d.isDigit = true) :
    integer? ds = some (ofDigits ds : Int) := by
  cases ds with
  | nil => exact absurd rfl nonempty
  | cons d ds =>
    rw [integer?_of_isDigit (digit d (.head ds)), natural?_of_digits nonempty digit]
    rfl

section

variable (nonempty : ds ≠ []) (digit : ∀ d ∈ ds, d.isDigit = true)

include nonempty digit

theorem int32?_of_digits (small : ofDigits ds ≤ 2147483647) : int32? ds = some (.ofInt (ofDigits ds)) := by
  have exact : (Int32.ofInt (ofDigits ds)).toInt = ofDigits ds := Int32.toInt_ofInt_of_le (by omega) (by omega)
  rw [int32?, integer?_of_digits nonempty digit, Option.bind_some, if_pos exact]

theorem int32?_of_large (large : ¬ ofDigits ds ≤ 2147483647) : int32? ds = none := by
  have cut : (Int32.ofInt (ofDigits ds)).toInt ≠ ofDigits ds := by
    have below := (Int32.ofInt (ofDigits ds)).toInt_lt
    omega
  rw [int32?, integer?_of_digits nonempty digit, Option.bind_some, if_neg cut]

theorem int64?_of_digits (bounded : ofDigits ds ≤ 9223372036854775807) : int64? ds = some (.ofInt (ofDigits ds)) := by
  have exact : (Int64.ofInt (ofDigits ds)).toInt = ofDigits ds := Int64.toInt_ofInt_of_le (by omega) (by omega)
  rw [int64?, integer?_of_digits nonempty digit, Option.bind_some, if_pos exact]

end

/-- Zeros in front of digits change nothing. -/
theorem ofDigits_zeros (zeros : Nat) (ds : List Char) : ofDigits (List.replicate zeros '0' ++ ds) = ofDigits ds := by
  induction zeros with
  | zero => rfl
  | succ zeros ih => exact ih

namespace Syntax

/-- The literal is the int of a given value. -/
def Literal.IsInt (v : Literal) (n : Int) : Prop := ∃ i : Int32, v = .int i ∧ i.toInt = n

/-- The literal is the long of a given value. -/
def Literal.IsLong (v : Literal) (n : Int) : Prop := ∃ l : Int64, v = .long l ∧ l.toInt = n

/-- Digits alone are an int if there is one, and else a long. -/
theorem literalOf_integer (nonempty : ds ≠ []) (digit : ∀ d ∈ ds, d.isDigit = true)
    (bounded : ofDigits ds ≤ 9223372036854775807) :
    ∃ v : Literal, (if ofDigits ds ≤ 2147483647 then v.IsInt (ofDigits ds) else v.IsLong (ofDigits ds)) ∧
      ∀ o, literalOf (.mk .integer ⟨ds, o⟩ (.behind o ds []) []) = .ok v := by
  by_cases small : ofDigits ds ≤ 2147483647
  · refine ⟨.int (.ofInt (ofDigits ds)), ?_, fun o => ?_⟩
    · rw [if_pos small]
      exact ⟨_, rfl, Int32.toInt_ofInt_of_le (by omega) (by omega)⟩
    · simp only [literalOf, Node.rule, Node.text, Cursor.textTo_all, int32?_of_digits nonempty digit small]
  · refine ⟨.long (.ofInt (ofDigits ds)), ?_, fun o => ?_⟩
    · rw [if_neg small]
      exact ⟨_, rfl, Int64.toInt_ofInt_of_le (by omega) (by omega)⟩
    · simp only [literalOf, Node.rule, Node.text, Cursor.textTo_all, int32?_of_large nonempty digit small,
        int64?_of_digits nonempty digit bounded]

/-- Digits with the letter behind them are a long. -/
theorem literalOf_long (nonempty : ds ≠ []) (digit : ∀ d ∈ ds, d.isDigit = true)
    (bounded : ofDigits ds ≤ 9223372036854775807) {mark : Char} (h : mark = 'L' ∨ mark = 'l') :
    ∃ v : Literal, v.IsLong (ofDigits ds) ∧
      ∀ o, literalOf (.mk .long ⟨ds ++ [mark], o⟩ (.behind o (ds ++ [mark]) []) []) = .ok v := by
  have letter : mark.isDigit = false := by rcases h with rfl | rfl <;> rfl
  -- the value is that of the digits, up to the letter
  have front : (ds ++ [mark]).takeWhile Char.isDigit = ds := by
    rw [List.takeWhile_append_of_pos digit]
    simp [letter]
  refine ⟨.long (.ofInt (ofDigits ds)), ⟨_, rfl, Int64.toInt_ofInt_of_le (by omega) (by omega)⟩, fun o => ?_⟩
  simp only [literalOf, Node.rule, Node.text, Cursor.textTo_all, front, int64?_of_digits nonempty digit bounded]

/-! ## The sign -/

/-- Changing the sign of an int that is not negative. -/
theorem Literal.IsInt.negate {v : Literal} {n : Nat} (h : v.IsInt n) : ∃ w, v.negate? = some w ∧ w.IsInt (-n) := by
  obtain ⟨i, rfl, value⟩ := h
  refine ⟨.int (-i), rfl, _, rfl, ?_⟩
  have below := i.toInt_lt
  rw [Int32.toInt_neg, value]
  exact Int.bmod_eq_of_le (by omega) (by omega)

/-- Changing the sign of a long that is not negative: the one above all ints becomes the smallest of them. -/
theorem Literal.IsLong.negate {v : Literal} {n : Nat} (h : v.IsLong n) :
    ∃ w, v.negate? = some w ∧ if n = 2147483648 then w.IsInt (-n) else w.IsLong (-n) := by
  obtain ⟨l, rfl, value⟩ := h
  -- changing the sign looks at the value only, not at what the literal was written as
  have same : l = 2147483648 ↔ n = 2147483648 := by
    rw [← Int64.toInt_inj, value]
    show (n : Int) = 2147483648 ↔ _
    omega
  by_cases edge : n = 2147483648
  · refine ⟨.int (-2147483648), if_pos (same.2 edge), ?_⟩
    rw [if_pos edge, edge]
    exact ⟨_, rfl, by decide⟩
  · refine ⟨.long (-l), if_neg (mt same.1 edge), ?_⟩
    rw [if_neg edge]
    refine ⟨_, rfl, ?_⟩
    have below := l.toInt_lt
    rw [Int64.toInt_neg, value]
    exact Int.bmod_eq_of_le (by omega) (by omega)

/-! ## Programs -/

/-- The source is a program of one expression statement, a literal that takes up all of it. -/
def Denotes (source : List Char) (v : Literal) : Prop :=
  parse (String.ofList source) = .ok [.expr (.literal ⟨0, byteLength source⟩ v)]

/-- A text that starts with a digit and is read as a literal, wherever it stands at the end of a source. -/
structure Numeral (text : List Char) (r : Rule) (v : Literal) : Prop where
  starts : ∃ x t, text = x :: t ∧ x.isDigit = true
  kind : r ∈ literalRules
  token : ∀ fuel o, text.length ≤ fuel →
    literal.Matches (fuel + 1) .building ⟨text, o⟩ (.behind o text []) [.mk r ⟨text, o⟩ (.behind o text []) []]
  value : ∀ o, literalOf (.mk r ⟨text, o⟩ (.behind o text []) []) = .ok v

namespace Numeral

variable {text : List Char} {r : Rule} {v w : Literal}

theorem denotes (h : Numeral text r v) : Denotes text v := by
  obtain ⟨x, t, rfl, digit⟩ := h.starts
  have source : (String.ofList (x :: t)).toList = x :: t := String.toList_ofList
  have token := h.token (16 * (x :: t).length + 27) 0 (by omega)
  have value := h.value 0
  rw [← source] at token value
  have whole := parse_of_literal source (by simp [startsLiteral, digit]) rfl token h.kind value
  rw [Denotes, whole]
  simp [Node.span, Cursor.behind]

/-- With a minus sign in front of it the numeral is the literal with its sign changed. -/
theorem denotes_negated (h : Numeral text r v) (sign : v.negate? = some w) : Denotes ('-' :: text) w := by
  obtain ⟨x, t, rfl, digit⟩ := h.starts
  have source : (String.ofList ('-' :: x :: t)).toList = '-' :: x :: t := String.toList_ofList
  have enough : (x :: t).length ≤ 16 * ('-' :: x :: t).length + 27 := by
    simp only [List.length_cons]
    omega
  have token := h.token _ 1 enough
  have whole := parse_of_negated source (by simp [startsLiteral, digit]) (by rw [source]; rfl) token h.kind (h.value 1)
    sign
  rw [Denotes, whole]
  simp [Node.span, Cursor.behind, byteLength]
  rfl

end Numeral

/-- Digits alone are a numeral. -/
theorem numeral_integer (nonempty : ds ≠ []) (digit : ∀ d ∈ ds, d.isDigit = true)
    (bounded : ofDigits ds ≤ 9223372036854775807) :
    ∃ v : Literal, (if ofDigits ds ≤ 2147483647 then v.IsInt (ofDigits ds) else v.IsLong (ofDigits ds)) ∧
      Numeral ds .integer v := by
  obtain ⟨v, kind, value⟩ := literalOf_integer nonempty digit bounded
  obtain ⟨x, t, rfl⟩ := List.exists_cons_of_ne_nil nonempty
  exact ⟨v, kind, ⟨x, t, rfl, digit x (.head t)⟩, by decide,
    fun _ o enough => matches_integer nonempty digit enough o, value⟩

/-- Digits with the letter behind them are a numeral. -/
theorem numeral_long (nonempty : ds ≠ []) (digit : ∀ d ∈ ds, d.isDigit = true)
    (bounded : ofDigits ds ≤ 9223372036854775807) {mark : Char} (h : mark = 'L' ∨ mark = 'l') :
    ∃ v : Literal, v.IsLong (ofDigits ds) ∧ Numeral (ds ++ [mark]) .long v := by
  obtain ⟨v, kind, value⟩ := literalOf_long nonempty digit bounded h
  obtain ⟨x, t, rfl⟩ := List.exists_cons_of_ne_nil nonempty
  refine ⟨v, kind, ⟨x, t ++ [mark], rfl, digit x (.head t)⟩, by decide, fun _ o enough => ?_, value⟩
  exact matches_long nonempty digit (by simp at enough ⊢; omega) h o

/-- An integer in decimal: a minus sign if it is negative, zeros, and the digits of its size. -/
def integerSource (zeros : Nat) (n : Int) : List Char :=
  (if n < 0 then ['-'] else []) ++ (List.replicate zeros '0' ++ decimalDigits n.natAbs)

/-- The digits of a number behind zeros denote the number. -/
theorem ofDigits_integerSource (zeros m : Nat) : ofDigits (List.replicate zeros '0' ++ decimalDigits m) = m := by
  rw [ofDigits_zeros]
  exact ofDigits_lastDigits (Nat.le_refl m)

theorem isDigit_integerSource (zeros m : Nat) :
    ∀ d ∈ List.replicate zeros '0' ++ decimalDigits m, d.isDigit = true := by
  intro d hd
  rcases List.mem_append.1 hd with zero | other
  · rw [List.eq_of_mem_replicate zero]
    rfl
  · exact isDigit_of_mem_lastDigits other

/-- The sign of an integer that is read without a letter: an int again if the integer is one. -/
theorem negate_integer {v : Literal} {m : Nat} (h : if m ≤ 2147483647 then v.IsInt m else v.IsLong m) :
    ∃ w, v.negate? = some w ∧ if m ≤ 2147483648 then w.IsInt (-m) else w.IsLong (-m) := by
  split at h
  · rename_i small
    obtain ⟨w, sign, what⟩ := h.negate
    refine ⟨w, sign, ?_⟩
    rw [if_pos (by omega)]
    exact what
  · rename_i large
    obtain ⟨w, sign, what⟩ := h.negate
    refine ⟨w, sign, ?_⟩
    -- the one long that becomes an int with its sign
    by_cases edge : m = 2147483648
    · rw [if_pos edge] at what
      rw [if_pos (by omega)]
      exact what
    · rw [if_neg edge] at what
      rw [if_neg (by omega)]
      exact what

/-- An integer literal denotes what is written: an int if it fits one and a long otherwise, and with the letter for it
a long - but for the smallest int, which is an int also with the letter. -/
theorem denotes_integer (n : Int) (zeros : Nat) (bounded : n.natAbs ≤ 9223372036854775807) :
    (∃ v : Literal, (if -2147483648 ≤ n ∧ n ≤ 2147483647 then v.IsInt n else v.IsLong n) ∧
      Denotes (integerSource zeros n) v) ∧
    ∀ mark, mark = 'L' ∨ mark = 'l' →
      ∃ v : Literal, (if n = -2147483648 then v.IsInt n else v.IsLong n) ∧
        Denotes (integerSource zeros n ++ [mark]) v := by
  obtain ⟨m, sized⟩ : ∃ m, m = n.natAbs := ⟨_, rfl⟩
  have size := ofDigits_integerSource zeros m
  have digit := isDigit_integerSource zeros m
  have nonempty : List.replicate zeros '0' ++ decimalDigits m ≠ [] := by
    simp [decimalDigits, lastDigits_ne_nil]
  have inside : ofDigits (List.replicate zeros '0' ++ decimalDigits m) ≤ 9223372036854775807 := by omega
  constructor
  · -- without a letter: the digits are an int or a long by their size, and the sign may turn a long into an int
    obtain ⟨v, kind, numeral⟩ := numeral_integer nonempty digit inside
    rw [size] at kind
    by_cases negative : n < 0
    · obtain ⟨w, sign, what⟩ := negate_integer kind
      refine ⟨w, ?_, ?_⟩
      · have value : -(m : Int) = n := by omega
        rw [value] at what
        simpa only [show (-2147483648 ≤ n ∧ n ≤ 2147483647) ↔ m ≤ 2147483648 by omega] using what
      · rw [integerSource, if_pos negative, ← sized]
        exact numeral.denotes_negated sign
    · refine ⟨v, ?_, ?_⟩
      · have value : (m : Int) = n := by omega
        rw [value] at kind
        simpa only [show (-2147483648 ≤ n ∧ n ≤ 2147483647) ↔ m ≤ 2147483647 by omega] using kind
      · rw [integerSource, if_neg negative, ← sized]
        exact numeral.denotes
  · -- with a letter: the digits are a long whatever their size, and the sign is applied to it all the same
    intro mark h
    obtain ⟨v, kind, numeral⟩ := numeral_long nonempty digit inside h
    rw [size] at kind
    by_cases negative : n < 0
    · obtain ⟨w, sign, what⟩ := kind.negate
      refine ⟨w, ?_, ?_⟩
      · have value : -(m : Int) = n := by omega
        rw [value] at what
        simpa only [show n = -2147483648 ↔ m = 2147483648 by omega] using what
      · rw [integerSource, if_pos negative, ← sized]
        exact numeral.denotes_negated sign
    · refine ⟨v, ?_, ?_⟩
      · have value : (m : Int) = n := by omega
        rw [value] at kind
        rwa [if_neg (by omega)]
      · rw [integerSource, if_neg negative, ← sized]
        exact numeral.denotes

/-- The smallest int, with two zeros in front of its digits: with the letter for a long it is an int all the same. -/
theorem denotes_integer_smallest :
    (-2147483648 : Int).natAbs ≤ 9223372036854775807 ∧
    integerSource 2 (-2147483648) = ['-', '0', '0', '2', '1', '4', '7', '4', '8', '3', '6', '4', '8'] ∧
    (∃ v : Literal, v.IsInt (-2147483648) ∧ Denotes (integerSource 2 (-2147483648)) v) ∧
    ∃ v : Literal, v.IsInt (-2147483648) ∧ Denotes (integerSource 2 (-2147483648) ++ ['L']) v := by
  have bounded : (-2147483648 : Int).natAbs ≤ 9223372036854775807 := by decide
  obtain ⟨plain, marked⟩ := denotes_integer (-2147483648) 2 bounded
  refine ⟨bounded, by decide, by simpa using plain, by simpa using marked 'L' (.inl rfl)⟩

end Syntax

end HostExpr
