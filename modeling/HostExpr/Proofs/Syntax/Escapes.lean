import HostExpr.Syntax.Escape
import Mathlib.Data.List.Forall2
import Mathlib.Data.Nat.Digits.Defs
import Mathlib.Tactic.Ring

/-!
# Escapes

What the inside of a text literal stands for, character by character, apart from how it is read: all but a backslash
stands for itself, and behind a backslash comes one of seven letters or `u` with a code. A code should be four
hexadecimal digits. Reading takes a little more, as it asks only that the next four characters be a number: a plus sign
with three digits, and what is left of the literal where that is less than four characters. `unescape_reads` says that
it accepts this and nothing else.
-/

namespace HostExpr.Syntax

/-! ## Hexadecimal numbers -/

/-- A hexadecimal digit, in either case, and its value. -/
def IsHexDigit (c : Char) (v : Nat) : Prop := v < 16 ∧ (c = Nat.digitChar v ∨ c = (Nat.digitChar v).toUpper)

instance (c : Char) (v : Nat) : Decidable (IsHexDigit c v) := inferInstanceAs (Decidable (_ ∧ _))

/-- Hexadecimal digits, the most significant first, and the number that they spell. -/
def SpellsHex (ds : List Char) (n : Nat) : Prop :=
  ds ≠ [] ∧ ∃ vs, List.Forall₂ IsHexDigit ds vs ∧ Nat.ofDigits 16 vs.reverse = n

/-- All hexadecimal digits are ASCII characters. -/
theorem toNat_lt_of_hexDigit? {c : Char} {v : Nat} (h : hexDigit? c = some v) : c.toNat < 128 := by
  have below {last : Char} (le : c ≤ last) (ascii : last.toNat < 128) : c.toNat < 128 := by
    have order : c.toNat ≤ last.toNat := UInt32.le_iff_toNat_le.1 le
    omega
  unfold hexDigit? at h
  split at h
  · rename_i digit
    simp only [Char.isDigit, Bool.and_eq_true, decide_eq_true_eq] at digit
    have le : c ≤ '9' := digit.2
    exact below le (by decide)
  · split at h
    · rename_i lower
      exact below lower.2 (by decide)
    · split at h
      · rename_i upper
        exact below upper.2 (by decide)
      · cases h

theorem hexDigit?_eq_some_iff {c : Char} {v : Nat} : hexDigit? c = some v ↔ IsHexDigit c v := by
  constructor
  · intro h
    have ascii : ∀ k : Fin 128, ∀ v ∈ hexDigit? (Char.ofNat k), IsHexDigit (Char.ofNat k) v := by decide
    have here := ascii ⟨c.toNat, toNat_lt_of_hexDigit? h⟩ v
    rw [Char.ofNat_toNat] at here
    exact here h
  · rintro ⟨small, h⟩
    have digits : ∀ v : Fin 16, hexDigit? (Nat.digitChar v) = some v.1 ∧
        hexDigit? (Nat.digitChar v).toUpper = some v.1 := by decide
    obtain ⟨lower, upper⟩ := digits ⟨v, small⟩
    rcases h with rfl | rfl
    · exact lower
    · exact upper

/-- The number so far, and what each further digit makes of it. -/
theorem foldlM_hexDigit?_eq_some_iff {ds : List Char} {a n : Nat} :
    ds.foldlM (fun n c => (hexDigit? c).map (n * 16 + ·)) a = some n ↔
      ∃ vs, List.Forall₂ IsHexDigit ds vs ∧ a * 16 ^ ds.length + Nat.ofDigits 16 vs.reverse = n := by
  induction ds generalizing a with
  | nil =>
    constructor
    · rintro ⟨⟩
      exact ⟨[], .nil, by simp⟩
    · rintro ⟨_, ⟨⟩, rfl⟩
      simp
  | cons c ds ih =>
    -- the first digit counts as often as there are numbers of the others
    have weight (v : Nat) (vs : List Nat) (same : vs.length = ds.length) :
        (a * 16 + v) * 16 ^ ds.length + Nat.ofDigits 16 vs.reverse
          = a * 16 ^ (c :: ds).length + Nat.ofDigits 16 (v :: vs).reverse := by
      rw [List.reverse_cons, Nat.ofDigits_append, Nat.ofDigits_singleton, List.length_reverse, same, List.length_cons]
      ring
    rw [List.foldlM_cons]
    constructor
    · intro h
      obtain ⟨b, first, rest⟩ := Option.bind_eq_some_iff.1 h
      obtain ⟨v, digit, rfl⟩ := Option.map_eq_some_iff.1 first
      obtain ⟨vs, digits, value⟩ := ih.1 rest
      refine ⟨v :: vs, .cons (hexDigit?_eq_some_iff.1 digit) digits, ?_⟩
      rw [← weight v vs digits.length_eq.symm, value]
    · rintro ⟨_, digits, value⟩
      cases digits with
      | @cons _ v _ vs digit digits =>
        refine Option.bind_eq_some_iff.2 ⟨a * 16 + v, ?_, ?_⟩
        · rw [hexDigit?_eq_some_iff.2 digit, Option.map_some]
        · refine ih.2 ⟨vs, digits, ?_⟩
          rw [weight v vs digits.length_eq.symm, value]

/-- A number in hexadecimal is read with a plus sign in front of it or without. -/
theorem hexadecimal?_eq_some_iff {cs : List Char} {n : Nat} :
    hexadecimal? cs = some n ↔ ∃ ds, SpellsHex ds n ∧ (cs = ds ∨ cs = '+' :: ds) := by
  have value (ds : List Char) :
      (if ds.isEmpty then none else ds.foldlM (fun n c => (hexDigit? c).map (n * 16 + ·)) 0) = some n
        ↔ SpellsHex ds n := by
    cases ds with
    | nil => simp [SpellsHex]
    | cons d ds =>
      rw [List.isEmpty_cons, if_neg Bool.false_ne_true, foldlM_hexDigit?_eq_some_iff]
      simp [SpellsHex]
  unfold hexadecimal?
  dsimp only
  split
  · rename_i ds
    rw [value]
    constructor
    · intro h
      exact ⟨ds, h, .inr rfl⟩
    · rintro ⟨ds', h, rfl | same⟩
      · -- the sign is no digit
        obtain ⟨-, vs, digits, -⟩ := h
        cases digits with
        | cons digit _ =>
          have none : hexDigit? '+' = none := rfl
          rw [← hexDigit?_eq_some_iff, none] at digit
          cases digit
      · cases same
        exact h
  · rename_i unsigned
    rw [value]
    constructor
    · intro h
      exact ⟨cs, h, .inl rfl⟩
    · rintro ⟨ds, h, rfl | rfl⟩
      · exact h
      · exact absurd rfl (unsigned ds)

theorem character?_eq_some_iff {n : Nat} {c : Char} : character? n = some c ↔ c.toNat = n := by
  unfold character?
  constructor
  · intro h
    by_cases valid : n.isValidChar
    · rw [dif_pos valid] at h
      cases h
      rfl
    · rw [dif_neg valid] at h
      cases h
  · rintro rfl
    have valid : c.toNat.isValidChar := c.valid
    rw [dif_pos valid]
    rfl

/-- The character that a code is read as. -/
theorem coded_eq_ok_iff {code : List Char} {c : Char} :
    coded code = .ok c ↔ ∃ ds, SpellsHex ds c.toNat ∧ (code = ds ∨ code = '+' :: ds) := by
  have number : (hexadecimal? code).bind character? = some c ↔ hexadecimal? code = some c.toNat := by
    simp [Option.bind_eq_some_iff, character?_eq_some_iff]
  rw [← hexadecimal?_eq_some_iff, ← number]
  unfold coded
  cases (hexadecimal? code).bind character? <;> simp

/-! ## The inside of a literal -/

/-- The letters that are escapes, with the characters they stand for. -/
def letterEscapes : List (Char × Char) :=
  [('n', '\n'), ('t', '\t'), ('r', '\r'), ('0', '\x00'), ('\\', '\\'), ('\'', '\''), ('"', '"')]

theorem escaped?_eq_some_iff {e c : Char} : escaped? e = some c ↔ (e, c) ∈ letterEscapes := by
  unfold escaped? letterEscapes
  split <;> simp_all [eq_comm]

/-- The inside of a literal and the text that it stands for. What is a code may depend on what comes behind it, and each
code has the number of a character. -/
inductive StandsFor (IsCode : List Char → List Char → Nat → Prop) : List Char → List Char → Prop
  | nil : StandsFor IsCode [] []
  | plain {c : Char} {raw s : List Char} (h : c ≠ '\\') (rest : StandsFor IsCode raw s) :
    StandsFor IsCode (c :: raw) (c :: s)
  | letter {e c : Char} {raw s : List Char} (h : (e, c) ∈ letterEscapes) (rest : StandsFor IsCode raw s) :
    StandsFor IsCode ('\\' :: e :: raw) (c :: s)
  | code {code raw s : List Char} {c : Char} (h : IsCode code raw c.toNat) (rest : StandsFor IsCode raw s) :
    StandsFor IsCode ('\\' :: 'u' :: (code ++ raw)) (c :: s)

/-- A code as it should be: four hexadecimal digits, whatever comes behind them. -/
def FourDigits (code _rest : List Char) (n : Nat) : Prop := code.length = 4 ∧ SpellsHex code n

/-- A code that is let through although it is not four digits: one of them is a plus sign, or the literal ends before
there are four. -/
inductive Slack : List Char → List Char → Nat → Prop
  | signed {ds rest : List Char} {n : Nat} (three : ds.length = 3) (h : SpellsHex ds n) : Slack ('+' :: ds) rest n
  | short {ds : List Char} {n : Nat} (few : ds.length < 4) (h : SpellsHex ds n) : Slack ds [] n
  | signedShort {ds : List Char} {n : Nat} (few : ds.length < 3) (h : SpellsHex ds n) : Slack ('+' :: ds) [] n

/-- A code as it is read. -/
def AsRead (code rest : List Char) (n : Nat) : Prop := FourDigits code rest n ∨ Slack code rest n

/-- How much of a literal is read as a code: four characters, or the rest of it if that is less. -/
def CodeEnds (code rest : List Char) : Prop := code.length = 4 ∨ code.length < 4 ∧ rest = []

theorem asRead_iff {code rest : List Char} {c : Char} :
    AsRead code rest c.toNat ↔ CodeEnds code rest ∧ coded code = .ok c := by
  rw [coded_eq_ok_iff]
  constructor
  · rintro (⟨four, h⟩ | slack)
    · exact ⟨.inl four, code, h, .inl rfl⟩
    · cases slack with
      | @signed ds _ _ three h => exact ⟨.inl (by simp [three]), ds, h, .inr rfl⟩
      | short few h => exact ⟨.inr ⟨few, rfl⟩, code, h, .inl rfl⟩
      | @signedShort ds _ few h => exact ⟨.inr ⟨Nat.succ_lt_succ few, rfl⟩, ds, h, .inr rfl⟩
  · rintro ⟨ends, ds, h, rfl | rfl⟩
    · rcases ends with four | ⟨few, rfl⟩
      · exact .inl ⟨four, h⟩
      · exact .inr (.short few h)
    · rcases ends with four | ⟨few, rfl⟩
      · exact .inr (.signed (by simpa using four) h)
      · exact .inr (.signedShort (Nat.lt_of_succ_lt_succ few) h)

theorem unescape_cons {c : Char} (plain : c ≠ '\\') (cs : List Char) :
    unescape (c :: cs) = (c :: ·) <$> unescape cs := by
  rw [unescape.eq_def]
  exact if_pos plain

theorem unescape_escaped {e c : Char} (h : escaped? e = some c) (cs : List Char) :
    unescape ('\\' :: e :: cs) = (c :: ·) <$> unescape cs := by
  -- the letter of a code in hexadecimal is no escape by itself
  have noCode : e ≠ 'u' := by
    rintro rfl
    cases h
  simp [unescape, noCode, h]

theorem unescape_code {code rest : List Char} (ends : CodeEnds code rest) {c : Char} (h : coded code = .ok c) :
    unescape ('\\' :: 'u' :: (code ++ rest)) = (c :: ·) <$> unescape rest := by
  rcases ends with four | ⟨few, rfl⟩
  · obtain ⟨h₁, h₂, h₃, h₄, rfl⟩ := List.length_eq_four.1 four
    simp [unescape, h]
  · match code, few with
    | [], _ | [_], _ | [_, _], _ | [_, _, _], _ =>
      simp only [List.append_nil, unescape, h]
      rfl

/-- What a reading that gives something was before it was changed. -/
theorem ok_of_map {ε α β : Type} {f : α → β} {x : Except ε α} {b : β} (h : f <$> x = .ok b) :
    ∃ a, x = .ok a ∧ f a = b := by
  cases x with
  | error e => cases h
  | ok a => exact ⟨a, rfl, Except.ok.inj h⟩

/-- A text is read just if the inside of the literal stands for it, with the codes as they are read. -/
theorem unescape_eq_ok_iff {raw s : List Char} : unescape raw = .ok s ↔ StandsFor AsRead raw s := by
  constructor
  · intro h
    -- by the recursion of the reader in this direction, and by the spelling in the other
    fun_induction unescape raw generalizing s with
    | case1 =>
      cases h
      exact .nil
    | case2 c cs plain ih =>
      obtain ⟨s, read, rfl⟩ := ok_of_map h
      exact .plain plain (ih read)
    | case3 => cases h
    | case4 c slash h₁ h₂ h₃ h₄ cs x value ih =>
      obtain ⟨s, read, rfl⟩ := ok_of_map h
      obtain rfl := not_not.1 slash
      have four : AsRead [h₁, h₂, h₃, h₄] cs x.toNat := asRead_iff.2 ⟨.inl rfl, value⟩
      exact .code four (ih read)
    | case5 => cases h
    | case6 c slash code few =>
      obtain ⟨x, value, rfl⟩ := ok_of_map h
      obtain rfl := not_not.1 slash
      -- at the end of the text fewer than four digits are read as a code too
      have short : code.length < 4 := by
        match code, few with
        | [], _ | [_], _ | [_, _], _ | [_, _, _], _ => simp
        | h₁ :: h₂ :: h₃ :: h₄ :: cs, few => exact (few h₁ h₂ h₃ h₄ cs rfl).elim
      have whole := StandsFor.code (asRead_iff.2 ⟨.inr ⟨short, rfl⟩, value⟩) .nil
      rwa [List.append_nil] at whole
    | case7 c slash e cs _ _ x value ih =>
      obtain ⟨s, read, rfl⟩ := ok_of_map h
      obtain rfl := not_not.1 slash
      exact .letter (escaped?_eq_some_iff.1 value) (ih read)
    | case8 => cases h
  · intro h
    induction h with
    | nil => rfl
    | plain h rest ih =>
      rw [unescape_cons h, ih]
      rfl
    | letter h rest ih =>
      rw [unescape_escaped (escaped?_eq_some_iff.2 h), ih]
      rfl
    | code h rest ih =>
      obtain ⟨ends, value⟩ := asRead_iff.1 h
      rw [unescape_code ends value, ih]
      rfl

/-! ## Codes of four digits -/

theorem StandsFor.mono {P Q : List Char → List Char → Nat → Prop} (imp : ∀ code rest n, P code rest n → Q code rest n)
    {raw s : List Char} (h : StandsFor P raw s) : StandsFor Q raw s := by
  induction h with
  | nil => exact .nil
  | plain h rest ih => exact .plain h ih
  | letter h rest ih => exact .letter h ih
  | code h rest ih => exact .code (imp _ _ _ h) ih

/-- An escape of the literal, behind some that are as they should be, has a code that is only let through. -/
def HasSlack (raw : List Char) : Prop :=
  ∃ front s code rest n, raw = front ++ '\\' :: 'u' :: (code ++ rest) ∧ StandsFor FourDigits front s ∧ Slack code rest n

/-- Codes are four digits up to the first one that is only let through. -/
theorem fourDigits_or_hasSlack {raw s : List Char} (h : StandsFor AsRead raw s) :
    StandsFor FourDigits raw s ∨ HasSlack raw := by
  induction h with
  | nil => exact .inl .nil
  | @plain c raw s h rest ih =>
    rcases ih with good | ⟨front, t, code, tail, n, rfl, before, slack⟩
    · exact .inl (.plain h good)
    · exact .inr ⟨c :: front, c :: t, code, tail, n, rfl, .plain h before, slack⟩
  | @letter e c raw s h rest ih =>
    rcases ih with good | ⟨front, t, code, tail, n, rfl, before, slack⟩
    · exact .inl (.letter h good)
    · exact .inr ⟨'\\' :: e :: front, c :: t, code, tail, n, rfl, .letter h before, slack⟩
  | @code code raw s c h rest ih =>
    rcases h with four | slack
    · rcases ih with good | ⟨front, t, code', tail, n, rfl, before, slack⟩
      · exact .inl (.code four good)
      · refine .inr ⟨'\\' :: 'u' :: (code ++ front), c :: t, code', tail, n, ?_, .code four before, slack⟩
        simp
    · exact .inr ⟨[], [], code, raw, _, rfl, .nil, slack⟩

/-- A letter that is an escape is not the one of codes. -/
theorem ne_of_mem_letterEscapes {e c : Char} (h : (e, c) ∈ letterEscapes) : e ≠ 'u' := by
  rintro rfl
  rw [← escaped?_eq_some_iff] at h
  cases h

/-- Four digits are no code that is only let through, whatever this is taken to be. -/
theorem Slack.not_fourDigits {code rest code' rest' : List Char} {n m : Nat} (slack : Slack code rest n)
    (four : FourDigits code' rest' m) : code ++ rest ≠ code' ++ rest' := by
  obtain ⟨length, nonempty, vs, digits, -⟩ := four
  have signless (ds : List Char) : '+' :: ds ≠ code' ++ rest' := by
    intro same
    cases digits with
    | nil => exact nonempty rfl
    | cons digit _ =>
      -- the sign is no digit
      obtain ⟨rfl, -⟩ := List.cons.inj same
      have none : hexDigit? '+' = none := rfl
      rw [← hexDigit?_eq_some_iff, none] at digit
      cases digit
  cases slack with
  | signed three h => exact signless _
  | signedShort few h => exact signless _
  | short few h =>
    intro same
    have lengths := congrArg List.length same
    simp only [List.length_append, List.length_nil] at lengths
    omega

section

variable {IsCode : List Char → List Char → Nat → Prop} {raw s : List Char}

/-- What comes behind a character that stands for itself. -/
theorem StandsFor.behind_plain {c : Char} (plain : c ≠ '\\') (h : StandsFor IsCode (c :: raw) s) :
    ∃ s, StandsFor IsCode raw s := by
  cases h with
  | plain _ rest => exact ⟨_, rest⟩
  | letter _ _ | code _ _ => exact absurd rfl plain

/-- What comes behind an escape that is a letter. -/
theorem StandsFor.behind_letter {e : Char} (letter : e ≠ 'u') (h : StandsFor IsCode ('\\' :: e :: raw) s) :
    ∃ s, StandsFor IsCode raw s := by
  cases h with
  | plain slash _ => exact absurd rfl slash
  | letter _ rest => exact ⟨_, rest⟩
  | code _ _ => exact absurd rfl letter

/-- The code of an escape, and what comes behind it. -/
theorem StandsFor.behind_code (h : StandsFor IsCode ('\\' :: 'u' :: raw) s) :
    ∃ code rest n s, raw = code ++ rest ∧ IsCode code rest n ∧ StandsFor IsCode rest s := by
  generalize whole : '\\' :: 'u' :: raw = escape at h
  cases h with
  | nil => cases whole
  | plain slash _ =>
    cases whole
    exact absurd rfl slash
  | letter letter _ =>
    cases whole
    exact absurd rfl (ne_of_mem_letterEscapes letter)
  | code code rest =>
    simp only [List.cons.injEq, true_and] at whole
    exact ⟨_, _, _, _, whole, code, rest⟩

end

/-- Codes of four digits fix where the next character starts: what is behind the front of a literal stands for a text if
the literal does. -/
theorem StandsFor.cancel {front t rest s : List Char} (before : StandsFor FourDigits front t)
    (h : StandsFor FourDigits (front ++ rest) s) : ∃ s, StandsFor FourDigits rest s := by
  induction before generalizing s with
  | nil => exact ⟨s, h⟩
  | plain plain _ ih =>
    obtain ⟨s, h⟩ := h.behind_plain plain
    exact ih h
  | letter letter _ ih =>
    obtain ⟨s, h⟩ := h.behind_letter (ne_of_mem_letterEscapes letter)
    exact ih h
  | @code code raw _ _ four _ ih =>
    rw [List.cons_append, List.cons_append, List.append_assoc] at h
    obtain ⟨code', rest', n, s, same, four', h⟩ := h.behind_code
    obtain ⟨-, rfl⟩ := List.append_inj same (four.1.trans four'.1.symm)
    exact ih h

/-- Where all codes are four digits there is none that is only let through. -/
theorem not_hasSlack {raw s : List Char} (h : StandsFor FourDigits raw s) : ¬ HasSlack raw := by
  rintro ⟨front, t, code, rest, n, rfl, before, slack⟩
  obtain ⟨s, h⟩ := before.cancel h
  obtain ⟨code', rest', m, s, same, four, -⟩ := h.behind_code
  exact slack.not_fourDigits four same

/-- Reading accepts just the literals whose escapes are letters and codes as they are read, and gives the text that such
a literal stands for. The literals whose codes are four digits are those among them without a code that is only let
through. -/
theorem unescape_reads (raw s : List Char) :
    (unescape raw = .ok s ↔ StandsFor AsRead raw s) ∧
    (StandsFor FourDigits raw s ↔ unescape raw = .ok s ∧ ¬ HasSlack raw) := by
  refine ⟨unescape_eq_ok_iff, ?_⟩
  rw [unescape_eq_ok_iff]
  constructor
  · intro h
    exact ⟨h.mono fun _ _ _ => .inl, not_hasSlack h⟩
  · rintro ⟨h, proper⟩
    exact (fourDigits_or_hasSlack h).resolve_right proper

-- two digits at the end of a literal are a code, and so are three behind a plus sign
example : unescape ['\\', 'u', '4', '1'] = .ok ['A'] := rfl
example : unescape ['\\', 'u', '+', '0', '4', '1', '!'] = .ok ['A', '!'] := rfl

end HostExpr.Syntax
