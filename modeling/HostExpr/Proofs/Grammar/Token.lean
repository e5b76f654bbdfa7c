import HostExpr.Proofs.Grammar.Refusal

/-!
# Matching tokens

Inside a token nothing is skipped and nothing is built, so that a token goes over its text piece by piece: a run of
digits, a quoted text, a word. A repetition takes as many pieces as there are, hence what stands behind a token must
not go on with it.
-/

namespace HostExpr

/-- What is decided for all ASCII characters. -/
theorem of_ascii {P : Char → Prop} (h : ∀ n : Fin 128, P (Char.ofNat n)) {x : Char} (ascii : x.toNat < 128) : P x := by
  have here := h ⟨x.toNat, ascii⟩
  rwa [Char.ofNat_toNat] at here

/-- A character of a text between quotes: a quote and a backslash are written with a backslash in front of them. -/
def escapedChar (quote x : Char) : List Char := if x = '\\' ∨ x = quote then ['\\', x] else [x]

/-- A text between quotes. -/
def quotedText (quote : Char) (xs : List Char) : List Char := quote :: (xs.flatMap (escapedChar quote) ++ [quote])

namespace Pattern

variable {p q : Pattern} {fuel : Nat} {xs ys s : List Char}

/-- Inside a token the pattern goes over the text `xs`, if `s` stands behind it. -/
def Passes (p : Pattern) (fuel : Nat) (xs s : List Char) : Prop :=
  ∀ o, p.Matches fuel .token ⟨xs ++ s, o⟩ (.behind o xs s) []

/-- Inside a token the pattern does not go on with the text `s`. -/
def Stops (p : Pattern) (fuel : Nat) (s : List Char) : Prop := ∀ o, p.Fails fuel .token ⟨s, o⟩

theorem passes_text (xs s : List Char) : (text xs).Passes fuel xs s := matches_text xs s

theorem passes_one (cls : CharClass) {x : Char} (h : cls.has x = true) (s : List Char) :
    (one cls).Passes fuel [x] s := by
  intro o log
  show ((Cursor.one? cls ⟨x :: s, o⟩).map (·, ([] : List Node))) = _
  simp only [Cursor.one?, h]
  rfl

theorem stops_one (cls : CharClass) {x : Char} (h : ¬ cls.has x = true) (s : List Char) :
    (one cls).Stops fuel (x :: s) := by
  intro o log
  show ((Cursor.one? cls ⟨x :: s, o⟩).map (·, ([] : List Node))) = _
  simp only [Cursor.one?, h]
  rfl

/-- A text fails where another one stands. -/
theorem stops_text_of_absent (h : ¬ xs <+: s) : (text xs).Stops fuel s := by
  intro o log
  show ((Cursor.text? xs ⟨s, o⟩).map (·, ([] : List Node))) = none
  cases found : Cursor.text? xs ⟨s, o⟩ with
  | none => rfl
  | some d => exact absurd ⟨d.rest, (Cursor.of_text? found).1.symm⟩ h

theorem stops_text {x y : Char} (xs s : List Char) (other : x ≠ y) : (text (x :: xs)).Stops fuel (y :: s) :=
  stops_text_of_absent fun h => other (List.cons_prefix_cons.1 h).1

/-- What the start of the text rules out stops there. -/
theorem stops_at (start : List Char) (h : p.refused start false) (s : List Char) : p.Stops fuel (start ++ s) :=
  fun o => fails_at start h s o

theorem stops_at_end (h : p.refused [] true) : p.Stops fuel [] := fun o => fails_at_end h o

/-- Two parts of a token. -/
theorem Passes.seq (hp : p.Passes fuel xs (ys ++ s)) (hq : q.Passes fuel ys s) :
    (p.seq q).Passes fuel (xs ++ ys) s := by
  intro o
  have second := hq (Cursor.behind o xs (ys ++ s)).offset
  rw [Cursor.behind_behind] at second
  rw [List.append_assoc]
  show (Matcher.seq id _ _).Gives _ _
  exact .seq (hp o) second

/-- A first character and the rest of a token. -/
theorem Passes.cons {x : Char} (hp : p.Passes fuel [x] (ys ++ s)) (hq : q.Passes fuel ys s) :
    (p.seq q).Passes fuel (x :: ys) s := hp.seq hq

/-- A part of a token behind which nothing stops it. -/
theorem Passes.notAhead (hp : p.Passes fuel xs s) (hq : q.Stops fuel s) : (p.seq q.notAhead).Passes fuel xs s := by
  intro o
  show (Matcher.seq id _ _).Gives _ _
  exact .seq (hp o) (.notAhead (hq _))

/-- A part of a token that is looked through beforehand. -/
theorem Stops.unless (hq : q.Stops fuel (xs ++ s)) (hp : p.Passes fuel xs s) :
    (q.notAhead.seq p).Passes fuel xs s := by
  intro o
  show (Matcher.seq id _ _).Gives _ _
  exact .seq (.notAhead (hq o)) (hp o)

theorem Stops.seq_left (hp : p.Stops fuel s) : (p.seq q).Stops fuel s := fun o => fails_seq (hp o)

theorem Passes.seq_stops (hp : p.Passes fuel xs s) (hq : q.Stops fuel s) : (p.seq q).Stops fuel (xs ++ s) := by
  intro o
  show (Matcher.seq id _ _).Gives _ _
  exact .seq_of_then_fails (hp o) (hq _)

theorem Passes.alt_right (hp : p.Stops fuel (xs ++ s)) (hq : q.Passes fuel xs s) : (p.alt q).Passes fuel xs s :=
  fun o => .alt_right (hp o) (hq o)

theorem Passes.alt_left (hp : p.Passes fuel xs s) : (p.alt q).Passes fuel xs s := fun o => .alt_left (hp o)

theorem Stops.alt (hp : p.Stops fuel s) (hq : q.Stops fuel s) : (p.alt q).Stops fuel s :=
  fun o => .alt_right (hp o) (hq o)

/-- A choice of texts fails where none of them stands. -/
theorem stops_first_text {ws : List (List Char)} (h : ∀ k ∈ ws, ¬ k <+: s) : (first (ws.map text)).Stops fuel s := by
  intro o
  refine fails_first fun q hq => ?_
  obtain ⟨k, hk, rfl⟩ := List.mem_map.1 hq
  exact stops_text_of_absent (h k hk) o

/-- An operator of one character, where it does not run on. -/
theorem passes_operator (c : Char) {notBefore : List (List Char)} (h : ∀ k ∈ notBefore, ¬ k <+: s) :
    (operator c notBefore).Passes fuel [c] s :=
  (passes_text [c] s).notAhead (stops_first_text h)

/-- A repetition goes over all pieces of a text, up to where it cannot go on. -/
theorem passes_pieces {us : List (List Char)} (piece : ∀ u ∈ us, ∀ t, p.Passes fuel u t) (stop : p.Stops fuel s)
    (enough : us.length ≤ fuel) : (star p).Passes fuel us.flatten s :=
  fun o => .star_flatten piece stop enough o

/-- A repetition of single characters. -/
theorem passes_characters (each : ∀ x ∈ xs, ∀ t, p.Passes fuel [x] t) (stop : p.Stops fuel s)
    (enough : xs.length ≤ fuel) : (star p).Passes fuel xs s := by
  have piece : ∀ u ∈ xs.map fun x => [x], ∀ t, p.Passes fuel u t := by
    intro u hu t
    obtain ⟨x, hx, rfl⟩ := List.mem_map.1 hu
    exact each x hx t
  have run := passes_pieces piece stop (by simpa using enough)
  rwa [← List.flatMap_def, List.flatMap_singleton'] at run

/-- A run of digits is passed as a whole. -/
theorem passes_digits {ds : List Char} (nonempty : ds ≠ []) (digit : ∀ d ∈ ds, d.isDigit = true)
    (stop : (one .digit).Stops fuel s) (enough : ds.length ≤ fuel) : digits.Passes fuel ds s := by
  cases ds with
  | nil => exact absurd rfl nonempty
  | cons d ds =>
    have others : (star (one .digit)).Passes fuel ds s :=
      passes_characters (fun x hx t => passes_one .digit (digit x (.tail d hx)) t) stop
        (by rw [List.length_cons] at enough; omega)
    exact .cons (passes_one .digit (digit d (.head ds)) _) others

/-! ## Quoted texts -/

/-- A quoted text is passed up to the quote that ends it. -/
theorem passes_quoted {quote : Char} (h : quote ≠ '\\') {xs : List Char} (enough : xs.length ≤ fuel)
    (s : List Char) : (quoted quote).Passes fuel (quotedText quote xs) s := by
  let unit : Pattern := first [seq (text ['\\']) (one .any), seq (notAhead (text [quote])) (one .any)]
  -- what the repetition takes at a time is what one character of the text is written as
  have piece : ∀ u ∈ xs.map (escapedChar quote), ∀ t, unit.Passes fuel u t := by
    intro u hu t
    obtain ⟨x, -, rfl⟩ := List.mem_map.1 hu
    unfold escapedChar
    split
    · exact .alt_left (.cons (passes_text ['\\'] _) (passes_one .any rfl t))
    · rename_i plain
      obtain ⟨noBackslash, noQuote⟩ := not_or.1 plain
      refine .alt_right (.seq_left (stops_text [] t (Ne.symm noBackslash))) ?_
      have noEnd : (text [quote]).Stops fuel ([x] ++ t) := stops_text [] t (Ne.symm noQuote)
      exact noEnd.unless (passes_one .any rfl t)
  have stop : unit.Stops fuel (quote :: s) := by
    refine .alt (.seq_left (stops_text [] s (Ne.symm h))) ?_
    exact fun o => fails_seq (.notAhead_of_matches (matches_text [quote] s o))
  have inside : (star unit).Passes fuel (xs.flatMap (escapedChar quote)) (quote :: s) := by
    rw [List.flatMap_def]
    exact passes_pieces piece stop (by simpa using enough)
  have closed : (seq (star unit) (text [quote])).Passes fuel (xs.flatMap (escapedChar quote) ++ [quote]) s :=
    .seq inside (passes_text [quote] s)
  exact .cons (passes_text [quote] _) closed

end Pattern

end HostExpr
