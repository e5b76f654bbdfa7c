import HostExpr.Grammar.Match

/-!
# What comes of a match

A matcher hands the attempts on and its result does not depend on them. `Matcher.Gives` says what comes of a match at
a place, whatever was attempted before; there is one lemma for each way of putting matchers together, and one for the
match of a rule.
-/

namespace HostExpr

/-! ## Bytes and characters -/

@[simp]
theorem byteLength_append (xs ys : List Char) : byteLength (xs ++ ys) = byteLength xs + byteLength ys := by
  induction xs with
  | nil => simp [byteLength]
  | cons x xs ih =>
    simp only [List.cons_append, byteLength, ih]
    omega

/-- As many bytes as a text has are those of the text. -/
theorem takeBytes_append (xs ys : List Char) : takeBytes (byteLength xs) (xs ++ ys) = xs := by
  induction xs with
  | nil => cases ys <;> rfl
  | cons x xs ih =>
    have size : 0 < x.utf8Size := x.utf8Size_pos
    have rest : x.utf8Size + byteLength xs - x.utf8Size = byteLength xs := by omega
    have some_left : ¬ x.utf8Size + byteLength xs = 0 := by omega
    rw [byteLength, List.cons_append, takeBytes, if_neg some_left, rest, ih]

/-- A place behind the text `xs`, if `ys` stands there. -/
def Cursor.behind (o : Nat) (xs ys : List Char) : Cursor := ⟨ys, o + byteLength xs⟩

/-- The text between two places. -/
@[simp]
theorem Cursor.textTo_behind (xs ys : List Char) (o : Nat) : Cursor.textTo ⟨xs ++ ys, o⟩ (behind o xs ys) = xs := by
  simp [Cursor.textTo, behind, takeBytes_append]

/-- The text of all that is left. -/
@[simp]
theorem Cursor.textTo_all (xs : List Char) (o : Nat) : Cursor.textTo ⟨xs, o⟩ (behind o xs []) = xs := by
  have all := textTo_behind xs [] o
  rwa [List.append_nil] at all

theorem Cursor.behind_behind (o : Nat) (xs ys zs : List Char) :
    behind (behind o xs (ys ++ zs)).offset ys zs = behind o (xs ++ ys) zs := by
  simp [behind, Nat.add_assoc]

/-- Past a text that stands at the place. -/
theorem Cursor.text?_append (xs ys : List Char) (o : Nat) : Cursor.text? xs ⟨xs ++ ys, o⟩ = some (behind o xs ys) := by
  induction xs generalizing o with
  | nil => rfl
  | cons x xs ih => simp [Cursor.text?, ih, behind, byteLength, Nat.add_assoc]

/-- Where a text is passed, it stands. -/
theorem Cursor.of_text? {xs : List Char} {c d : Cursor} (h : Cursor.text? xs c = some d) :
    c.rest = xs ++ d.rest ∧ d = behind c.offset xs d.rest := by
  induction xs generalizing c with
  | nil =>
    cases h
    exact ⟨rfl, rfl⟩
  | cons x xs ih =>
    obtain ⟨rest, o⟩ := c
    cases rest with
    | nil => cases h
    | cons y ys =>
      simp only [Cursor.text?] at h
      split at h
      · rename_i same
        obtain ⟨stands, place⟩ := ih h
        refine ⟨by simpa [same] using stands, ?_⟩
        rw [place]
        simp [behind, byteLength, same, Nat.add_assoc]
      · cases h

/-! ## Matchers -/

namespace Matcher

variable {skip : Cursor → Cursor} {p q r : Matcher} {c d e : Cursor} {ns ms : List Node}
  {found : Option (Cursor × List Node)}

/-- Of three matches in a row, the first two or the last two may be taken together. -/
theorem seq_assoc (skip : Cursor → Cursor) (p q r : Matcher) :
    Matcher.seq skip (.seq skip p q) r = .seq skip p (.seq skip q r) := by
  funext c log
  unfold Matcher.seq
  cases p c log with
  | mk first log₁ =>
    cases first with
    | none => rfl
    | some x =>
      dsimp only
      cases q (skip x.1) log₁ with
      | mk second log₂ =>
        cases second with
        | none => rfl
        | some y =>
          dsimp only
          cases r (skip y.1) log₂ with
          | mk third log₃ => cases third <;> simp

/-- What comes of a match at a place, whatever was attempted before. -/
def Gives (p : Matcher) (c : Cursor) (found : Option (Cursor × List Node)) : Prop := ∀ log, (p c log).1 = found

namespace Gives

theorem run (h : p.Gives c found) (log : Attempts) : ∃ log', p c log = (found, log') :=
  ⟨(p c log).2, Prod.ext (h log) rfl⟩

theorem move {f : Cursor → Option Cursor} : Gives (.move f) c ((f c).map (·, [])) := fun _ => rfl

/-- One after the other. -/
theorem seq (hp : p.Gives c (some (d, ns))) (hq : q.Gives (skip d) (some (e, ms))) :
    (Matcher.seq skip p q).Gives c (some (e, ns ++ ms)) := by
  intro log
  obtain ⟨log₁, first⟩ := hp.run log
  obtain ⟨log₂, second⟩ := hq.run log₁
  simp only [Matcher.seq, first, second]

theorem seq_of_then_fails (hp : p.Gives c (some (d, ns))) (hq : q.Gives (skip d) none) :
    (Matcher.seq skip p q).Gives c none := by
  intro log
  obtain ⟨log₁, first⟩ := hp.run log
  obtain ⟨log₂, second⟩ := hq.run log₁
  simp only [Matcher.seq, first, second]

theorem seq_of_fails (hp : p.Gives c none) : (Matcher.seq skip p q).Gives c none := by
  intro log
  obtain ⟨log₁, first⟩ := hp.run log
  simp only [Matcher.seq, first]

/-- The first choice, where it matches. -/
theorem alt_left {x : Cursor × List Node} (hp : p.Gives c (some x)) : (Matcher.alt p q).Gives c (some x) := by
  intro log
  obtain ⟨log₁, first⟩ := hp.run log
  simp only [Matcher.alt, first]

/-- The second choice, where the first one fails. -/
theorem alt_right (hp : p.Gives c none) (hq : q.Gives c found) : (Matcher.alt p q).Gives c found := by
  intro log
  obtain ⟨log₁, first⟩ := hp.run log
  simp only [Matcher.alt, first, hq log₁]

theorem opt_of_fails (hp : p.Gives c none) : (Matcher.opt p).Gives c (some (c, [])) := by
  intro log
  obtain ⟨log₁, first⟩ := hp.run log
  simp only [Matcher.opt, first]

theorem opt {x : Cursor × List Node} (hp : p.Gives c (some x)) : (Matcher.opt p).Gives c (some x) := by
  intro log
  obtain ⟨log₁, first⟩ := hp.run log
  simp only [Matcher.opt, first]

theorem ahead {x : Cursor × List Node} (hp : p.Gives c (some x)) : (Matcher.ahead p).Gives c (some (c, [])) := by
  intro log
  obtain ⟨log₁, first⟩ := hp.run log
  simp only [Matcher.ahead, first]

theorem ahead_of_fails (hp : p.Gives c none) : (Matcher.ahead p).Gives c none := by
  intro log
  obtain ⟨log₁, first⟩ := hp.run log
  simp only [Matcher.ahead, first]

theorem notAhead (hp : p.Gives c none) : (Matcher.notAhead p).Gives c (some (c, [])) := by
  intro log
  obtain ⟨log₁, first⟩ := hp.run log
  simp only [Matcher.notAhead, first]

theorem notAhead_of_matches {x : Cursor × List Node} (hp : p.Gives c (some x)) :
    (Matcher.notAhead p).Gives c none := by
  intro log
  obtain ⟨log₁, first⟩ := hp.run log
  simp only [Matcher.notAhead, first]

/-! ### Repetition -/

/-- No more rounds. -/
theorem rounds_nil (hp : p.Gives (skip c) none) (k : Nat) : (rounds skip p k).Gives c (some (c, [])) := by
  intro log
  cases k with
  | zero => rfl
  | succ k =>
    obtain ⟨log₁, first⟩ := hp.run log
    simp only [Matcher.rounds, first]

/-- One round and those behind it. -/
theorem rounds_cons {k : Nat} (hp : p.Gives (skip c) (some (d, ns)))
    (rest : (rounds skip p k).Gives d (some (e, ms))) : (rounds skip p (k + 1)).Gives c (some (e, ns ++ ms)) := by
  intro log
  obtain ⟨log₁, first⟩ := hp.run log
  obtain ⟨log₂, others⟩ := rest.run log₁
  simp only [Matcher.rounds, first, others]

/-- Where nothing can be skipped, the first round of a repetition is like all others. -/
theorem star {k : Nat} (settled : skip c = c) (h : (rounds skip p (k + 1)).Gives c found) :
    (Matcher.star skip k p).Gives c found := by
  intro log
  have run := h log
  unfold Matcher.rounds at run
  rw [settled] at run
  exact run

theorem star_nil {k : Nat} (hp : p.Gives c none) : (Matcher.star skip k p).Gives c (some (c, [])) := by
  intro log
  obtain ⟨log₁, first⟩ := hp.run log
  simp only [Matcher.star, first]

/-- A repetition goes over all pieces of a text that match one by one, up to where it cannot go on. -/
theorem star_flatten {us : List (List Char)} {s : List Char}
    (unit : ∀ u ∈ us, ∀ t o, p.Gives ⟨u ++ t, o⟩ (some (.behind o u t, []))) (stop : ∀ o, p.Gives ⟨s, o⟩ none)
    {k : Nat} (enough : us.length ≤ k) (o : Nat) :
    (Matcher.star id k p).Gives ⟨us.flatten ++ s, o⟩ (some (.behind o us.flatten s, [])) := by
  refine star rfl ?_
  -- the first round is like all others now, so that the induction is over the pieces
  replace enough : us.length ≤ k + 1 := by omega
  generalize k + 1 = k at enough
  induction us generalizing k o with
  | nil => exact rounds_nil (stop o) k
  | cons u us ih =>
    obtain ⟨k, rfl⟩ : ∃ j, k = j + 1 := ⟨k - 1, by simp at enough; omega⟩
    have first : p.Gives (id ⟨u ++ (us.flatten ++ s), o⟩) _ := unit u (.head us) (us.flatten ++ s) o
    have rest := ih (fun v hv => unit v (.tail _ hv)) (Cursor.behind o u (us.flatten ++ s)).offset k
      (by simpa using enough)
    rw [Cursor.behind_behind] at rest
    rw [List.flatten_cons, List.append_assoc]
    exact rounds_cons first rest

end Gives

end Matcher

/-! ## Patterns and rules -/

/-- The match of a pattern between the rules of the grammar. -/
abbrev Pattern.matcher (fuel : Nat) (mode : Mode) (p : Pattern) : Matcher :=
  p.matcherWith (Rule.matcher fuel) (skipTrivia fuel) fuel mode

namespace Pattern

variable {p q : Pattern} {fuel : Nat} {mode : Mode} {c d e : Cursor} {ns ms : List Node}

/-- What comes of a pattern at a place. -/
abbrev Gives (p : Pattern) (fuel : Nat) (mode : Mode) (c : Cursor) (found : Option (Cursor × List Node)) : Prop :=
  (p.matcher fuel mode).Gives c found

/-- The pattern matches from one place to another. -/
abbrev Matches (p : Pattern) (fuel : Nat) (mode : Mode) (c d : Cursor) (ns : List Node) : Prop :=
  p.Gives fuel mode c (some (d, ns))

/-- The pattern does not match at a place. -/
abbrev Fails (p : Pattern) (fuel : Nat) (mode : Mode) (c : Cursor) : Prop := p.Gives fuel mode c none

/-! ### Rules -/

/-- What comes of a rule is what comes of its pattern, in a node of its own. -/
theorem gives_rule (mode : Mode) (r : Rule) (found : Option (Cursor × List Node))
    (h : r.pattern.Gives fuel (if r.isToken then .token else mode) c found) :
    (Pattern.rule r).Gives (fuel + 1) mode c
      (found.map fun x => (x.1, if mode = .building ∧ r.leavesNode then [.mk r c x.1 x.2] else [])) := by
  intro log
  obtain ⟨log₁, body⟩ := h.run log
  show (Rule.matcher (fuel + 1) mode r c log).1 = _
  simp only [Rule.matcher, Matcher.node, body]
  cases found <;> rfl

/-- A rule with parts of its own. -/
theorem matches_node {r : Rule} (parts : r.isToken = false) (leaves : r.leavesNode = true)
    (h : r.pattern.Matches fuel .building c d ns) : (Pattern.rule r).Matches (fuel + 1) .building c d [.mk r c d ns] := by
  have rule := gives_rule .building r (some (d, ns)) (by simpa [parts] using h)
  simpa [leaves] using rule

/-- A token that stands for something. -/
theorem matches_token {r : Rule} (token : r.isToken = true) (leaves : r.leavesNode = true)
    (h : r.pattern.Matches fuel .token c d ns) : (Pattern.rule r).Matches (fuel + 1) .building c d [.mk r c d ns] := by
  have rule := gives_rule .building r (some (d, ns)) (by simpa [token] using h)
  simpa [leaves] using rule

/-- A token that stands for nothing. -/
theorem matches_silent {r : Rule} (token : r.isToken = true) (leaves : r.leavesNode = false)
    (h : r.pattern.Matches fuel .token c d ns) : (Pattern.rule r).Matches (fuel + 1) .building c d [] := by
  have rule := gives_rule .building r (some (d, ns)) (by simpa [token] using h)
  simpa [leaves] using rule

/-- A rule inside a token. -/
theorem matches_inside {r : Rule} (h : r.pattern.Matches fuel .token c d ns) :
    (Pattern.rule r).Matches (fuel + 1) .token c d [] := by
  have rule := gives_rule .token r (some (d, ns)) (by simpa using h)
  simpa using rule

theorem fails_node {r : Rule} (parts : r.isToken = false) (h : r.pattern.Fails fuel mode c) :
    (Pattern.rule r).Fails (fuel + 1) mode c :=
  gives_rule mode r none (by simpa [parts] using h)

theorem fails_token {r : Rule} (token : r.isToken = true) (h : r.pattern.Fails fuel .token c) :
    (Pattern.rule r).Fails (fuel + 1) mode c :=
  gives_rule mode r none (by simpa [token] using h)

/-- A rule without fuel fails. -/
theorem fails_zero (r : Rule) : (Pattern.rule r).Fails 0 mode c := fun _ => rfl

/-! ### Sequences and choices -/

/-- Outside of tokens blanks are skipped between two patterns. -/
theorem matches_seq (hp : p.Matches fuel .building c d ns) (hq : q.Matches fuel .building (skipTrivia fuel d) e ms) :
    (Pattern.seq p q).Matches fuel .building c e (ns ++ ms) :=
  Matcher.Gives.seq hp hq

theorem fails_then (hp : p.Matches fuel .building c d ns) (hq : q.Fails fuel .building (skipTrivia fuel d)) :
    (Pattern.seq p q).Fails fuel .building c :=
  Matcher.Gives.seq_of_then_fails hp hq

theorem fails_seq (hp : p.Fails fuel mode c) : (Pattern.seq p q).Fails fuel mode c :=
  Matcher.Gives.seq_of_fails hp

/-- A repetition where nothing can be skipped. -/
theorem matches_star (settled : skipTrivia fuel c = c)
    (h : (Matcher.rounds (skipTrivia fuel) (p.matcher fuel .building) (fuel + 1)).Gives c (some (d, ns))) :
    (Pattern.star p).Matches fuel .building c d ns :=
  Matcher.Gives.star settled h

/-- A repetition without a round. -/
theorem matches_none (h : p.Fails fuel mode c) : (Pattern.star p).Matches fuel mode c c [] := .star_nil h

/-- A repetition of one round. -/
theorem matches_once (settled : skipTrivia fuel c = c) (here : p.Matches fuel .building c d ns)
    (stop : p.Fails fuel .building (skipTrivia fuel d)) : (Pattern.star p).Matches fuel .building c d ns := by
  have first : (p.matcher fuel .building).Gives (skipTrivia fuel c) (some (d, ns)) := by
    rw [settled]
    exact here
  have round := first.rounds_cons (.rounds_nil stop fuel)
  rw [List.append_nil] at round
  exact matches_star settled round

/-- The text that stands at a place. -/
theorem matches_text (xs ys : List Char) (o : Nat) :
    (Pattern.text xs).Matches fuel mode ⟨xs ++ ys, o⟩ (.behind o xs ys) [] := by
  intro log
  show ((Cursor.text? xs ⟨xs ++ ys, o⟩).map (·, ([] : List Node))) = _
  rw [Cursor.text?_append]
  rfl

/-- Of a choice, the first one that matches. -/
theorem matches_first (before behind : List Pattern) (refused : ∀ q ∈ before, q.Fails fuel mode c)
    (h : p.Matches fuel mode c d ns) : (first (before ++ p :: behind)).Matches fuel mode c d ns := by
  induction before with
  | nil =>
    cases behind with
    | nil => exact h
    | cons q behind => exact .alt_left h
  | cons q before ih =>
    have here : q.Fails fuel mode c := refused q (.head before)
    have rest := ih fun q hq => refused q (.tail _ hq)
    -- behind `q` the choice goes on, as at least `p` is left
    obtain ⟨q', rest', split⟩ : ∃ q' rest', before ++ p :: behind = q' :: rest' := by
      cases before with
      | nil => exact ⟨_, _, rfl⟩
      | cons q' before => exact ⟨_, _, rfl⟩
    show (first (q :: (before ++ p :: behind))).Matches fuel mode c d ns
    rw [split] at rest ⊢
    exact .alt_right here rest

/-- A choice of which nothing matches. -/
theorem fails_first {ps : List Pattern} (refused : ∀ q ∈ ps, q.Fails fuel mode c) :
    (first ps).Fails fuel mode c := by
  induction ps with
  | nil => exact .notAhead_of_matches (.move (f := some))
  | cons q ps ih =>
    cases ps with
    | nil => exact refused q (.head [])
    | cons q' ps => exact .alt_right (refused q (.head _)) (ih fun q hq => refused q (.tail _ hq))

end Pattern

end HostExpr
