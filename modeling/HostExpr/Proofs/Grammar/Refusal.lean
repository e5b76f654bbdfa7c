import HostExpr.Proofs.Grammar.Outcome

/-!
# Where a pattern cannot match

The first characters at a place often rule a pattern out. `Pattern.verdict` finds that out from the grammar alone, so
that it can be computed: for the pattern to fail it is enough that `Pattern.refused` is true of what is known of the
text. The same computation tells where no blank or comment starts.
-/

namespace HostExpr

/-- What the start of a text tells about a pattern: it cannot match, or it consumes nothing if it matches. -/
inductive Verdict
  | fails
  | idles
  | unknown
deriving DecidableEq

/-- A word does not stand at the start of a text of which the characters `start` are known; the text ends behind them
if it is `closed`. -/
def clashes (closed : Bool) : (word start : List Char) → Bool
  | [], _ => false
  | _ :: _, [] => closed
  | x :: xs, y :: ys => x ≠ y || clashes closed xs ys

/-- What the start of a text tells about a pattern, given which rules cannot match. -/
def Pattern.verdict (rules : Rule → Bool) (start : List Char) (closed : Bool) : Pattern → Verdict
  | .nothing => .idles
  | .text word => if clashes closed word start then .fails else .unknown
  | .one cls =>
    match start with
    | [] => if closed then .fails else .unknown
    | x :: _ => if cls.has x then .unknown else .fails
  | .atEnd => if start.isEmpty then .unknown else .fails
  | .rule r => if rules r then .fails else .unknown
  | .seq p q =>
    match verdict rules start closed p with
    | .fails => .fails
    | .idles => verdict rules start closed q
    | .unknown => .unknown
  | .alt p q =>
    match verdict rules start closed p, verdict rules start closed q with
    | .fails, v => v
    | .idles, .fails | .idles, .idles => .idles
    | _, _ => .unknown
  | .star p | .opt p => if verdict rules start closed p = .fails then .idles else .unknown
  | .ahead p => if verdict rules start closed p = .fails then .fails else .idles
  | .notAhead _ => .idles

/-- The start of a text rules a rule out, as far as its pattern tells with at most `depth` rules inside each other. -/
def Rule.refused (start : List Char) (closed : Bool) : (depth : Nat) → Rule → Bool
  | 0, _ => false
  | depth + 1, r => r.pattern.verdict (Rule.refused start closed depth) start closed = .fails

/-- The start of a text rules a pattern out, and no blank or comment starts there. -/
def Pattern.refused (start : List Char) (closed : Bool) (p : Pattern) : Bool :=
  trivia.verdict (fun _ => false) start closed = .idles
    && p.verdict (Rule.refused start closed 8) start closed = .fails

/-! ## Matches that consume nothing -/

namespace Matcher

variable {p q : Matcher} {skip : Cursor → Cursor} {c : Cursor}

/-- A match at the place ends where it starts. -/
def Idles (p : Matcher) (c : Cursor) : Prop := ∀ log d ns log', p c log = (some (d, ns), log') → d = c

theorem Gives.idles {ns : List Node} (h : p.Gives c (some (c, ns))) : p.Idles c := by
  intro log d ms log' run
  obtain ⟨log₁, here⟩ := h.run log
  rw [here] at run
  cases run
  rfl

theorem Gives.idles_of_fails (h : p.Gives c none) : p.Idles c := by
  intro log d ns log' run
  obtain ⟨log₁, here⟩ := h.run log
  rw [here] at run
  cases run

/-- Behind a part that consumes nothing, the next one starts at the same place. -/
theorem Idles.seq_fails (hp : p.Idles c) (settled : skip c = c) (hq : q.Gives c none) :
    (Matcher.seq skip p q).Gives c none := by
  intro log
  unfold Matcher.seq
  split
  · rfl
  · rename_i d ns log₁ run
    obtain rfl := hp _ _ _ _ run
    obtain ⟨log₂, run'⟩ := hq.run log₁
    rw [settled, run']

theorem Idles.seq (hp : p.Idles c) (settled : skip c = c) (hq : q.Idles c) : (Matcher.seq skip p q).Idles c := by
  intro log d ns log' run
  unfold Matcher.seq at run
  split at run
  · cases run
  · rename_i e ms log₁ first
    obtain rfl := hp _ _ _ _ first
    rw [settled] at run
    split at run
    · cases run
    · rename_i e' ms' log₂ second
      cases run
      exact hq _ _ _ _ second

theorem Idles.alt (hp : p.Idles c) (hq : q.Idles c) : (Matcher.alt p q).Idles c := by
  intro log d ns log' run
  unfold Matcher.alt at run
  split at run
  · exact hq _ _ _ _ run
  · exact hp _ _ _ _ run

theorem idles_ahead : (Matcher.ahead p).Idles c := by
  intro log d ns log' run
  unfold Matcher.ahead at run
  split at run
  · cases run
  · cases run
    rfl

theorem idles_notAhead : (Matcher.notAhead p).Idles c := by
  intro log d ns log' run
  unfold Matcher.notAhead at run
  split at run
  · cases run
    rfl
  · cases run

end Matcher

/-! ## Verdicts are right -/

/-- What a verdict says of a match. -/
def Verdict.Holds (m : Matcher) (c : Cursor) : Verdict → Prop
  | .fails => m.Gives c none
  | .idles => m.Idles c
  | .unknown => True

/-- What is known of the text at a place. -/
def Cursor.Starts (start : List Char) (closed : Bool) (c : Cursor) : Prop :=
  ∃ more, c.rest = start ++ more ∧ (closed → more = [])

variable {start : List Char} {closed : Bool} {c : Cursor}

theorem Cursor.text?_of_clashes {word : List Char} (h : clashes closed word start) (hc : c.Starts start closed) :
    c.text? word = none := by
  obtain ⟨more, rest, ends⟩ := hc
  obtain ⟨text, o⟩ := c
  obtain rfl : text = start ++ more := rest
  induction word, start using clashes.induct generalizing o with
  | case1 => simp [clashes] at h
  | case2 x xs =>
    obtain rfl := ends (by simpa [clashes] using h)
    rfl
  | case3 x xs y ys ih =>
    by_cases same : x = y
    · have later : clashes closed xs ys := by simpa [clashes, same] using h
      simp [Cursor.text?, same, ih later]
    · simp [Cursor.text?, same]

namespace Pattern

section

variable {rules : Mode → Rule → Matcher} {skip : Cursor → Cursor} {refused : Rule → Bool} {fuel : Nat} {mode : Mode}

/-- A text that clashes with a word does not start with it. -/
theorem holds_text (word : List Char) (hc : c.Starts start closed) :
    ((text word).verdict refused start closed).Holds ((text word).matcherWith rules skip fuel mode) c := by
  unfold verdict
  split
  · rename_i clash
    intro log
    show (c.text? word).map (·, ([] : List Node)) = none
    rw [Cursor.text?_of_clashes clash hc]
    rfl
  · trivial

/-- A character of another class, or none, stands at the place. -/
theorem holds_one (cls : CharClass) (hc : c.Starts start closed) :
    ((one cls).verdict refused start closed).Holds ((one cls).matcherWith rules skip fuel mode) c := by
  obtain ⟨more, rest, ends⟩ := hc
  have fails (h : c.one? cls = none) : ((one cls).matcherWith rules skip fuel mode).Gives c none := by
    intro log
    show (c.one? cls).map (·, ([] : List Node)) = none
    rw [h]
    rfl
  cases start with
  | nil =>
    simp only [verdict]
    split
    · rename_i isClosed
      exact fails (by simp [Cursor.one?, rest, ends isClosed])
    · trivial
  | cons x xs =>
    simp only [verdict]
    split
    · trivial
    · rename_i other
      exact fails (by simp [Cursor.one?, rest, other])

theorem holds_atEnd (hc : c.Starts start closed) :
    (atEnd.verdict refused start closed).Holds (atEnd.matcherWith rules skip fuel mode) c := by
  unfold verdict
  split
  · trivial
  · rename_i more
    obtain ⟨_, rest, _⟩ := hc
    intro log
    show (if c.rest.isEmpty then some c else none).map (·, ([] : List Node)) = none
    rw [rest]
    cases start with
    | nil => exact absurd rfl more
    | cons x xs => rfl

end

/-- What the start of a text tells about a pattern is so, if that is right for rules and nothing can be skipped. -/
theorem holds_verdict (rules : Mode → Rule → Matcher) (skip : Cursor → Cursor) (refused : Rule → Bool) (fuel : Nat)
    (hr : ∀ mode r, refused r → (rules mode r).Gives c none) (settled : skip c = c) (hc : c.Starts start closed)
    (p : Pattern) (mode : Mode) :
    (p.verdict refused start closed).Holds (p.matcherWith rules skip fuel mode) c := by
  -- inside a token nothing is skipped anyway
  have stays (m : Mode) : (if m = .token then id else skip) c = c := by
    split
    · rfl
    · exact settled
  induction p generalizing mode with
  | nothing => exact Matcher.Gives.idles (fun _ => rfl)
  | text word => exact holds_text word hc
  | one cls => exact holds_one cls hc
  | atEnd => exact holds_atEnd hc
  | rule r =>
    unfold verdict
    split
    · rename_i h
      exact hr mode r h
    · trivial
  | seq p q ihp ihq =>
    have first := ihp mode
    have second := ihq mode
    unfold verdict
    split
    · rename_i hp
      rw [hp] at first
      exact .seq_of_fails first
    · -- `p` consumes nothing, so that `q` is tried at the same place
      rename_i hp
      rw [hp] at first
      cases hq : q.verdict refused start closed with
      | fails =>
        rw [hq] at second
        exact Matcher.Idles.seq_fails first (stays mode) second
      | idles =>
        rw [hq] at second
        exact Matcher.Idles.seq first (stays mode) second
      | unknown => trivial
    · trivial
  | alt p q ihp ihq =>
    have first := ihp mode
    have second := ihq mode
    unfold verdict
    cases hp : p.verdict refused start closed <;> cases hq : q.verdict refused start closed <;>
      rw [hp] at first <;> rw [hq] at second
    case fails.fails => exact .alt_right first second
    case fails.idles => exact Matcher.Idles.alt first.idles_of_fails second
    case idles.fails => exact Matcher.Idles.alt first second.idles_of_fails
    case idles.idles => exact Matcher.Idles.alt first second
    all_goals trivial
  | star p ih =>
    have inner := ih mode
    unfold verdict
    split
    · rename_i hp
      rw [hp] at inner
      exact (Matcher.Gives.star_nil inner).idles
    · trivial
  | opt p ih =>
    have inner := ih mode
    unfold verdict
    split
    · rename_i hp
      rw [hp] at inner
      exact (Matcher.Gives.opt_of_fails inner).idles
    · trivial
  | ahead p ih =>
    have inner := ih mode.look
    unfold verdict
    split
    · rename_i hp
      rw [hp] at inner
      exact .ahead_of_fails inner
    · exact Matcher.idles_ahead
  | notAhead p ih => exact Matcher.idles_notAhead

end Pattern

/-! ## Blanks -/

/-- No blank and no comment starts at the place. -/
def Cursor.Settled (c : Cursor) : Prop := ∀ fuel, skipTrivia fuel c = c

/-- Nothing can be skipped where the start of the text tells so. -/
theorem Cursor.settled_of_verdict (h : trivia.verdict (fun _ => false) start closed = .idles)
    (hc : c.Starts start closed) : c.Settled := by
  intro fuel
  -- there are no rules in what is skipped
  have idle := Pattern.holds_verdict (fun _ _ => .move fun _ => none) id (fun _ => false) fuel
    (fun _ _ h => by cases h) rfl hc trivia .token
  rw [h] at idle
  unfold skipTrivia
  split
  · rfl
  · split
    · split
      · rename_i d ns log run
        exact idle _ _ _ _ run
      · rfl
    · rfl

/-- Nothing can be skipped where something is refused by the characters that the text starts with. -/
theorem Cursor.settled_of_refused {p : Pattern} (start : List Char) (h : p.refused start false) (more : List Char)
    (o : Nat) : Cursor.Settled ⟨start ++ more, o⟩ :=
  settled_of_verdict (of_decide_eq_true (Bool.and_eq_true_iff.1 h).1) ⟨more, rfl, fun h => by cases h⟩

/-- Nothing can be skipped at the end. -/
theorem Cursor.settled_nil (o : Nat) : Cursor.Settled ⟨[], o⟩ := fun _ => rfl

/-- A rule that the start of the text rules out fails, whatever the fuel. -/
theorem Rule.fails_of_refused {depth : Nat} {r : Rule} (h : Rule.refused start closed depth r) (settled : c.Settled)
    (hc : c.Starts start closed) (fuel : Nat) (mode : Mode) : (Pattern.rule r).Fails fuel mode c := by
  -- on the depth to which the grammar was looked through; with less fuel the rule fails all the more
  induction depth generalizing r fuel mode with
  | zero => cases h
  | succ depth ih =>
    cases fuel with
    | zero => exact Pattern.fails_zero r
    | succ f =>
    refine Pattern.gives_rule mode r none ?_
    have verdict := Pattern.holds_verdict (Rule.matcher f) (skipTrivia f) _ f (fun mode r h => ih h f mode)
      (settled f) hc r.pattern (if r.isToken then .token else mode)
    rw [of_decide_eq_true h] at verdict
    exact verdict

namespace Pattern

/-- A pattern that the start of the text rules out fails, whatever the fuel. -/
theorem fails_of_refused {p : Pattern} (h : p.refused start closed) (hc : c.Starts start closed) (fuel : Nat)
    (mode : Mode) : p.Fails fuel mode c := by
  obtain ⟨blank, out⟩ := Bool.and_eq_true_iff.1 h
  have settled := Cursor.settled_of_verdict (of_decide_eq_true blank) hc
  have verdict := holds_verdict (Rule.matcher fuel) (skipTrivia fuel) (Rule.refused start closed 8) fuel
    (fun mode r h => Rule.fails_of_refused h settled hc fuel mode) (settled fuel) hc p mode
  rw [of_decide_eq_true out] at verdict
  exact verdict

/-- A pattern fails where the text starts with characters that rule it out. -/
theorem fails_at {p : Pattern} (start : List Char) (h : p.refused start false) {fuel : Nat} {mode : Mode}
    (more : List Char) (o : Nat) : p.Fails fuel mode ⟨start ++ more, o⟩ :=
  fails_of_refused h ⟨more, rfl, fun h => by cases h⟩ fuel mode

/-- A pattern that needs a character fails at the end. -/
theorem fails_at_end {p : Pattern} (h : p.refused [] true) {fuel : Nat} {mode : Mode} (o : Nat) :
    p.Fails fuel mode ⟨[], o⟩ :=
  fails_of_refused h ⟨[], rfl, fun _ => rfl⟩ fuel mode

end Pattern

end HostExpr
