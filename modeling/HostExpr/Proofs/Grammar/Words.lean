import HostExpr.Proofs.Grammar.Token

/-!
# Names and reserved words

A word of the language ends where no name goes on, so that a name is never taken for a reserved word that it starts
with. Conversely, what is written like a name and is not reserved is matched as a name, whole.
-/

namespace HostExpr

/-- A character that a name can start with. -/
def startsName (c : Char) : Bool := c.isAlpha || c = '_' || c = '$'

/-- A character that a name can go on with. -/
def continuesName (c : Char) : Bool := c.isAlphanum || c = '_' || c = '$'

/-- The words that are no names. -/
def reserved : List (List Char) :=
  [['i', 'f'], ['e', 'l', 's', 'e'], ['w', 'h', 'i', 'l', 'e'], ['f', 'o', 'r'], ['r', 'e', 't', 'u', 'r', 'n'],
    ['n', 'e', 'w'], ['i', 'm', 'p', 'o', 'r', 't'], ['v', 'a', 'r'], ['d', 'e', 'f'], ['t', 'r', 'u', 'e'],
    ['f', 'a', 'l', 's', 'e'], ['n', 'u', 'l', 'l']]

/-- A name: a letter, underscore or dollar sign, then any of these and digits; no reserved word. -/
structure Identifier where
  first : Char
  others : List Char
  starts : startsName first
  continues : ∀ c ∈ others, continuesName c
  free : first :: others ∉ reserved

namespace Identifier

/-- The characters of a name. -/
def text (w : Identifier) : List Char := w.first :: w.others

theorem continuesName_of_startsName {c : Char} (h : startsName c) : continuesName c := by
  simp only [startsName, continuesName, Char.isAlphanum, Bool.or_eq_true] at h ⊢
  rcases h with (letter | underscore) | dollar
  · exact .inl (.inl (.inl letter))
  · exact .inl (.inr underscore)
  · exact .inr dollar

theorem continuesName_of_mem (w : Identifier) : ∀ c ∈ w.text, continuesName c := by
  intro c hc
  rcases List.mem_cons.1 hc with rfl | other
  · exact continuesName_of_startsName w.starts
  · exact w.continues c other

end Identifier

/-- A name starts with an ASCII character. -/
theorem ascii_of_startsName {c : Char} (h : startsName c) : c.toNat < 128 := by
  simp only [startsName, Bool.or_eq_true, decide_eq_true_eq] at h
  rcases h with (letter | rfl) | rfl
  · rcases (Bool.or_eq_true_iff ..).1 (show (c.isUpper || c.isLower) = true from letter) with upper | lower
    · exact Nat.lt_of_le_of_lt (of_decide_eq_true upper).2 (by decide)
    · exact Nat.lt_of_le_of_lt (of_decide_eq_true ((Bool.and_eq_true_iff ..).1 lower).2) (by decide)
  · decide
  · decide

/-- No name goes on with the text. -/
def EndsName (s : List Char) : Prop := ∀ c t, s = c :: t → continuesName c = false

namespace Pattern

variable {fuel : Nat} {s v : List Char}

theorem passes_identChar {c : Char} (h : continuesName c) (s : List Char) : identChar.Passes fuel [c] s := by
  simp only [continuesName, Bool.or_eq_true, decide_eq_true_eq] at h
  rcases h with (ordinary | rfl) | rfl
  · exact .alt_left (passes_one .letterOrDigit ordinary s)
  · exact .alt_right (stops_at ['_'] (by decide) s) (.alt_left (passes_text ['_'] s))
  · exact .alt_right (stops_at ['$'] (by decide) s)
      (.alt_right (stops_at ['$'] (by decide) s) (passes_text ['$'] s))

theorem stops_identChar (h : EndsName s) : identChar.Stops fuel s := by
  cases s with
  | nil => exact stops_at_end (by decide)
  | cons c t =>
    have other := h c t rfl
    simp only [continuesName, Bool.or_eq_false_iff, decide_eq_false_iff_not] at other
    obtain ⟨⟨ordinary, underscore⟩, dollar⟩ := other
    refine .alt ?_ (.alt (stops_text [] t (Ne.symm underscore)) (stops_text [] t (Ne.symm dollar)))
    exact stops_one .letterOrDigit (by simpa [CharClass.has] using ordinary) t

/-! ## Words -/

/-- Of several words, one that the text starts with is passed, or none is. -/
theorem stops_or_passes_words (ws : List (List Char)) :
    (first (ws.map text)).Stops fuel v ∨
      ∃ k ∈ ws, ∃ t, v = k ++ t ∧ (first (ws.map text)).Passes fuel k t := by
  induction ws with
  | nil => exact .inl fun o => fails_first (by simp)
  | cons k ws ih =>
    -- the words behind `k` are tried only where `k` does not stand
    by_cases start : k <+: v
    · obtain ⟨t, rfl⟩ := start
      refine .inr ⟨k, .head ws, t, rfl, ?_⟩
      cases ws with
      | nil => exact passes_text k t
      | cons k' ws => exact .alt_left (passes_text k t)
    · have other : (text k).Stops fuel v := stops_text_of_absent start
      cases ws with
      | nil => exact .inl other
      | cons k' ws =>
        rcases ih with stops | ⟨k'', hk, t, rfl, passes⟩
        · exact .inl (other.alt stops)
        · exact .inr ⟨k'', .tail k hk, t, rfl, .alt_right other passes⟩

/-- A choice of words fails at a text that goes on behind each word that it starts with. -/
theorem stops_words {ws : List (List Char)}
    (longer : ∀ k ∈ ws, ∀ t, v = k ++ t → ∃ c t', t = c :: t' ∧ continuesName c) :
    (seq (first (ws.map text)) (notAhead identChar)).Stops fuel v := by
  rcases stops_or_passes_words ws with stops | ⟨k, hk, t, split, passes⟩
  · exact stops.seq_left
  · obtain ⟨c, t', rfl, goes⟩ := longer k hk t split
    rw [split]
    exact passes.seq_stops fun o => .notAhead_of_matches (passes_identChar goes t' o)

/-- A reserved word that a name starts with is not found there. -/
theorem stops_reserved {ws : List (List Char)} (some : ws ⊆ reserved) (w : Identifier) (ends : EndsName s) :
    (seq (first (ws.map text)) (notAhead identChar)).Stops fuel (w.text ++ s) := by
  have letters : ∀ k ∈ reserved, k.all continuesName := by decide
  refine stops_words fun k hk t split => ?_
  rcases List.append_eq_append_iff.1 split with ⟨more, rfl, rest⟩ | ⟨more, name, rest⟩
  · -- the word is the name or goes on behind it, where no name does
    cases more with
    | nil =>
      rw [List.append_nil] at hk
      exact absurd (some hk) w.free
    | cons c more =>
      have goes := List.all_eq_true.1 (letters _ (some hk)) c (by simp)
      rw [ends c _ rest] at goes
      cases goes
  · -- the name is the word or goes on behind it
    cases more with
    | nil =>
      rw [List.append_nil] at name
      exact absurd (some hk) (name ▸ w.free)
    | cons c more => exact ⟨c, more ++ s, rest, w.continuesName_of_mem c (by simp [name])⟩

/-- A rule that is a choice of reserved words fails where a name stands. -/
theorem fails_reserved {r : Rule} (ws : List (List Char)) (some : ws ⊆ reserved) (token : r.isToken = true)
    (choice : r.pattern = seq (first (ws.map text)) (notAhead identChar)) (w : Identifier) (ends : EndsName s)
    (mode : Mode) (o : Nat) : (rule r).Fails fuel mode ⟨w.text ++ s, o⟩ := by
  cases fuel with
  | zero => exact fails_zero r
  | succ fuel =>
    refine fails_token token ?_
    rw [choice]
    exact stops_reserved some w ends o

/-! ## Names -/

/-- A name is passed as a whole. -/
theorem passes_ident (w : Identifier) (ends : EndsName s) (enough : w.text.length ≤ fuel) :
    Rule.ident.pattern.Passes fuel w.text s := by
  -- no keyword stands here, since the name is none and does not go on
  have free : keyword.Stops fuel (w.text ++ s) :=
    stops_reserved (List.Subset.refl reserved) w ends
  have initial : ∀ t, (first [one .letter, text ['_'], text ['$']]).Passes fuel [w.first] t := by
    intro t
    have starts := w.starts
    simp only [startsName, Bool.or_eq_true, decide_eq_true_eq] at starts
    rcases starts with (letter | underscore) | dollar
    · exact .alt_left (passes_one .letter letter t)
    · rw [underscore]
      exact .alt_right (stops_at ['_'] (by decide) t) (.alt_left (passes_text ['_'] t))
    · rw [dollar]
      exact .alt_right (stops_at ['$'] (by decide) t) (.alt_right (stops_at ['$'] (by decide) t) (passes_text ['$'] t))
  have rest : (star identChar).Passes fuel w.others s :=
    passes_characters (fun c hc t => passes_identChar (w.continues c hc) t) (stops_identChar ends)
      (by simp only [Identifier.text, List.length_cons] at enough; omega)
  exact free.unless (.cons (initial _) rest)

end Pattern

end HostExpr
