import HostExpr.Proofs.Grammar.Outcome

/-!
# Where nodes lie

A match moves on over whole characters. So the nodes of a parse tree start and end between characters of the source,
they lie one behind the other, and those inside a node lie between its ends. Attempts are recorded at such places too.
-/

namespace HostExpr

/-! ## Places behind each other -/

namespace Cursor

/-- The second place is the first one, or lies some characters behind it. -/
def Reaches (c d : Cursor) : Prop := ∃ xs, c.rest = xs ++ d.rest ∧ d.offset = c.offset + byteLength xs

variable {c d e : Cursor}

theorem Reaches.refl (c : Cursor) : c.Reaches c := ⟨[], rfl, rfl⟩

theorem Reaches.trans (h : c.Reaches d) (h' : d.Reaches e) : c.Reaches e := by
  obtain ⟨xs, text, offset⟩ := h
  obtain ⟨ys, text', offset'⟩ := h'
  refine ⟨xs ++ ys, ?_, ?_⟩
  · rw [text, text', List.append_assoc]
  · rw [offset', offset, byteLength_append, Nat.add_assoc]

theorem Reaches.offset_le (h : c.Reaches d) : c.offset ≤ d.offset := by
  obtain ⟨xs, -, offset⟩ := h
  omega

theorem reaches_of_text? {xs : List Char} (h : text? xs c = some d) : c.Reaches d := by
  obtain ⟨text, place⟩ := of_text? h
  exact ⟨xs, text, by rw [place]; rfl⟩

theorem reaches_of_one? {cls : CharClass} (h : one? cls c = some d) : c.Reaches d := by
  obtain ⟨rest, offset⟩ := c
  cases rest with
  | nil => cases h
  | cons x rest =>
    simp only [one?] at h
    split at h
    · cases h
      exact ⟨[x], rfl, rfl⟩
    · cases h

end Cursor

/-! ## Nodes behind each other -/

/-- The nodes lie one behind the other from one place to another, and so do those inside each of them. -/
inductive Laid : Cursor → List Node → Cursor → Prop
  | nil {c d : Cursor} (reaches : c.Reaches d) : Laid c [] d
  | cons {c a b d : Cursor} {r : Rule} {inner ns : List Node} (before : c.Reaches a) (inside : Laid a inner b)
    (behind : Laid b ns d) : Laid c (.mk r a b inner :: ns) d

namespace Laid

variable {c c' d d' : Cursor} {n : Node} {ns ms : List Node}

theorem reaches (h : Laid c ns d) : c.Reaches d := by
  induction h with
  | nil reaches => exact reaches
  | cons before inside behind ihi ihb => exact (before.trans ihi).trans ihb

/-- What lies between two places lies between any further apart. -/
theorem widen (h : Laid c ns d) (before : c'.Reaches c) (behind : d.Reaches d') : Laid c' ns d' := by
  induction h generalizing c' with
  | nil reaches => exact .nil ((before.trans reaches).trans behind)
  | cons first inside rest ihi ihb => exact .cons (before.trans first) inside (ihb (.refl _) behind)

theorem append (h : Laid c ns d) (h' : Laid d ms d') : Laid c (ns ++ ms) d' := by
  induction h with
  | nil reaches => exact h'.widen reaches (.refl _)
  | cons before inside behind ihi ihb => exact .cons before inside (ihb h')

/-- The first node of a row, and those behind it. -/
theorem split (h : Laid c (n :: ns) d) : ∃ m, Laid c [n] m ∧ Laid m ns d := by
  cases h with
  | cons before inside behind => exact ⟨_, .cons before inside (.nil (.refl _)), behind⟩

/-- Each node of a row lies where the row does. -/
theorem mem (h : Laid c ns d) (hn : n ∈ ns) : Laid c [n] d := by
  induction ns generalizing c with
  | nil => cases hn
  | cons m ns ih =>
    obtain ⟨a, first, rest⟩ := h.split
    rcases List.mem_cons.1 hn with rfl | hn
    · exact first.widen (.refl c) rest.reaches
    · exact (ih rest hn).widen first.reaches (.refl d)

theorem tail (h : Laid c (n :: ns) d) : Laid c ns d := by
  obtain ⟨a, first, rest⟩ := h.split
  exact rest.widen first.reaches (.refl d)

variable {r : Rule} {a b : Cursor}

/-- What is known of a single node. -/
theorem of_single (h : Laid c [.mk r a b ns] d) : c.Reaches a ∧ Laid a ns b ∧ b.Reaches d := by
  cases h with
  | cons before inside behind => exact ⟨before, inside, behind.reaches⟩

/-- What is inside a node lies where the node does. -/
theorem inner (h : Laid c [.mk r a b ns] d) : Laid c ns d := by
  obtain ⟨before, inside, behind⟩ := h.of_single
  exact inside.widen before behind

end Laid

/-! ## Matches -/

namespace Matcher

variable {P : Nat → Prop} {p q : Matcher} {skip : Cursor → Cursor}

/-- A match goes on to a later place, with its nodes laid out up to there. If `P` holds of all places from where it
starts, it goes on to hold of the one where attempts are recorded. -/
def Lays (P : Nat → Prop) (p : Matcher) : Prop :=
  ∀ c log found log', p c log = (found, log') → (∀ d, c.Reaches d → P d.offset) → P log.offset →
    P log'.offset ∧ ∀ d ns, found = some (d, ns) → Laid c ns d

theorem lays_move {f : Cursor → Option Cursor} (h : ∀ c d, f c = some d → c.Reaches d) : Lays P (.move f) := by
  intro c log found log' run hc hl
  simp only [move, Prod.mk.injEq] at run
  obtain ⟨rfl, rfl⟩ := run
  refine ⟨hl, fun d ns moved => ?_⟩
  simp only [Option.map_eq_some_iff, Prod.mk.injEq] at moved
  obtain ⟨d, moved, rfl, rfl⟩ := moved
  exact .nil (h c d moved)

/-- A second match starts behind the first one, and behind what is skipped between them. -/
theorem Lays.seq (hs : ∀ c, Cursor.Reaches c (skip c)) (hp : Lays P p) (hq : Lays P q) : Lays P (.seq skip p q) := by
  intro c log found log' run hc hl
  simp only [Matcher.seq] at run
  split at run
  · rename_i log₁ first
    cases run
    exact ⟨(hp _ _ _ _ first hc hl).1, fun _ _ none => by cases none⟩
  · rename_i d ns log₁ first
    obtain ⟨marked, laid⟩ := hp _ _ _ _ first hc hl
    -- what is skipped between the two lies behind the first and before the second
    have laid : Laid c ns (skip d) := (laid d ns rfl).widen (.refl c) (hs d)
    have rest := hq (skip d) log₁ _ _ rfl (fun e he => hc e (laid.reaches.trans he)) marked
    split at run
    · rename_i log₂ second
      rw [second] at rest
      cases run
      exact ⟨rest.1, fun _ _ none => by cases none⟩
    · rename_i e ms log₂ second
      rw [second] at rest
      cases run
      refine ⟨rest.1, fun _ _ same => ?_⟩
      cases same
      exact laid.append (rest.2 e ms rfl)

theorem Lays.alt (hp : Lays P p) (hq : Lays P q) : Lays P (.alt p q) := by
  intro c log found log' run hc hl
  simp only [Matcher.alt] at run
  split at run
  · rename_i log₁ first
    exact hq _ _ _ _ run hc (hp _ _ _ _ first hc hl).1
  · exact hp _ _ _ _ run hc hl

/-- Where `p` does not match, the place stays. -/
theorem Lays.orStay {r : Matcher} (hp : Lays P p) (hq : Lays P q) (hr : ∀ c log, r c log = match p c log with
    | (none, log) => (some (c, []), log)
    | (some _, _) => q c log) : Lays P r := by
  intro c log found log' run hc hl
  rw [hr] at run
  split at run
  · rename_i log₁ first
    cases run
    refine ⟨(hp _ _ _ _ first hc hl).1, fun _ _ same => ?_⟩
    cases same
    exact .nil (.refl c)
  · exact hq _ _ _ _ run hc hl

theorem Lays.opt (hp : Lays P p) : Lays P (.opt p) := by
  refine hp.orStay hp fun c log => ?_
  unfold Matcher.opt
  rcases p c log with ⟨_ | found, log'⟩ <;> rfl

/-- Each round starts behind the one before it. -/
theorem Lays.rounds (hs : ∀ c, Cursor.Reaches c (skip c)) (hp : Lays P p) (fuel : Nat) :
    Lays P (.rounds skip p fuel) := by
  -- a round together with what is skipped in front of it
  have round : Lays P fun c => p (skip c) := by
    intro c log found log' run hc hl
    obtain ⟨marked, laid⟩ := hp _ _ _ _ run (fun d hd => hc d ((hs c).trans hd)) hl
    exact ⟨marked, fun d ns same => (laid d ns same).widen (hs c) (.refl d)⟩
  induction fuel with
  | zero => exact lays_move (f := some) fun c d same => by cases same; exact .refl c
  | succ fuel ih =>
    refine round.orStay (round.seq Cursor.Reaches.refl ih) fun c log => ?_
    rw [Matcher.rounds, Matcher.seq]
    rcases p (skip c) log with ⟨_ | found, log'⟩ <;> rfl

theorem Lays.star (hs : ∀ c, Cursor.Reaches c (skip c)) (hp : Lays P p) (fuel : Nat) :
    Lays P (.star skip fuel p) := by
  refine hp.orStay (hp.seq Cursor.Reaches.refl (hp.rounds hs fuel)) fun c log => ?_
  unfold Matcher.star Matcher.seq
  rcases p c log with ⟨_ | found, log'⟩ <;> rfl

theorem Lays.ahead (hp : Lays P p) : Lays P (.ahead p) := by
  intro c log found log' run hc hl
  simp only [Matcher.ahead] at run
  split at run
  · rename_i log₁ first
    cases run
    exact ⟨(hp _ _ _ _ first hc hl).1, fun _ _ none => by cases none⟩
  · rename_i log₁ first
    cases run
    refine ⟨(hp _ _ _ _ first hc hl).1, fun _ _ same => ?_⟩
    cases same
    exact .nil (.refl c)

theorem Lays.notAhead (hp : Lays P p) : Lays P (.notAhead p) := by
  intro c log found log' run hc hl
  simp only [Matcher.notAhead] at run
  split at run
  · rename_i log₁ first
    cases run
    refine ⟨(hp _ _ _ _ first hc hl).1, fun _ _ same => ?_⟩
    cases same
    exact .nil (.refl c)
  · rename_i log₁ first
    cases run
    exact ⟨(hp _ _ _ _ first hc hl).1, fun _ _ none => by cases none⟩

/-- An attempt is recorded where it was made, or further right where others were. -/
theorem offset_record {log : Attempts} {o before : Nat} {r : Rule} (here : P o) (there : P log.offset) :
    P (log.record o before r).offset := by
  unfold Attempts.record
  split
  · exact there
  · split
    · exact there
    · split
      · exact here
      · exact here

/-- The node of a rule takes in what its pattern matched. -/
theorem Lays.node (mode : Mode) (r : Rule) (hp : Lays P p) : Lays P (.node mode r p) := by
  intro c log found log' run hc hl
  simp only [Matcher.node] at run
  split at run
  · rename_i log₁ body
    obtain ⟨marked, -⟩ := hp _ _ _ _ body hc hl
    cases run
    refine ⟨?_, fun _ _ none => by cases none⟩
    -- a failed attempt is recorded where the rule was tried
    split
    · exact marked
    · exact offset_record (hc c (.refl c)) marked
  · rename_i d ns log₁ body
    obtain ⟨marked, laid⟩ := hp _ _ _ _ body hc hl
    have laid := laid d ns rfl
    cases run
    refine ⟨marked, fun _ _ same => ?_⟩
    cases same
    -- a rule that leaves no node leaves none of those inside it either
    split
    · exact .cons (.refl c) laid (.nil (.refl d))
    · exact .nil laid.reaches

end Matcher

/-- A pattern lays out its nodes if the rules in it do. -/
theorem Pattern.lays_matcherWith {P : Nat → Prop} {rules : Mode → Rule → Matcher} {skip : Cursor → Cursor}
    (hs : ∀ c, Cursor.Reaches c (skip c)) (h : ∀ mode r, (rules mode r).Lays P) (fuel : Nat) (p : Pattern)
    (mode : Mode) : (p.matcherWith rules skip fuel mode).Lays P := by
  have between (c : Cursor) : c.Reaches ((if mode = .token then id else skip) c) := by
    split
    · exact .refl c
    · exact hs c
  induction p generalizing mode with
  | nothing => exact Matcher.lays_move fun c d same => by cases same; exact .refl c
  | text cs => exact Matcher.lays_move fun c d => Cursor.reaches_of_text?
  | one cls => exact Matcher.lays_move fun c d => Cursor.reaches_of_one?
  | atEnd =>
    refine Matcher.lays_move fun c d same => ?_
    split at same
    · cases same
      exact .refl c
    · cases same
  | rule r => exact h mode r
  | seq p q ihp ihq => exact (ihp mode between).seq between (ihq mode between)
  | alt p q ihp ihq => exact (ihp mode between).alt (ihq mode between)
  | star p ih => exact (ih mode between).star between fuel
  | opt p ih => exact (ih mode between).opt
  -- looking ahead skips nothing within tokens
  | ahead p ih =>
    refine (ih mode.look fun c => ?_).ahead
    split
    · exact .refl c
    · exact hs c
  | notAhead p ih =>
    refine (ih mode.look fun c => ?_).notAhead
    split
    · exact .refl c
    · exact hs c

/-- Blanks and comments are skipped forward. -/
theorem Cursor.reaches_skipTrivia (fuel : Nat) (c : Cursor) : c.Reaches (skipTrivia fuel c) := by
  have forward : (trivia.matcherWith (fun _ _ => .move fun _ => none) id fuel .token).Lays fun _ => True :=
    trivia.lays_matcherWith .refl (fun _ _ => Matcher.lays_move fun c d none => by cases none) fuel _
  unfold skipTrivia
  split
  · exact .refl c
  · split
    · split
      · rename_i d ns log run
        exact ((forward _ _ _ _ run (fun _ _ => trivial) trivial).2 d ns rfl).reaches
      · exact .refl c
    · exact .refl c

/-- The nodes of every rule are laid out. -/
theorem Rule.lays_matcher (P : Nat → Prop) (fuel : Nat) (mode : Mode) (r : Rule) :
    (Rule.matcher fuel mode r).Lays P := by
  induction fuel generalizing mode r with
  | zero =>
    rw [Rule.matcher]
    exact Matcher.lays_move fun c d none => by cases none
  | succ fuel ih =>
    rw [Rule.matcher]
    exact (r.pattern.lays_matcherWith (Cursor.reaches_skipTrivia fuel) ih fuel _).node mode r

/-- The parse tree of a source is laid out over it. -/
theorem Node.laid_ofSource {source : List Char} {n : Node} (h : Node.ofSource source = .ok n) :
    ∃ d, Laid (.ofList source) [n] d := by
  have lays := Rule.lays_matcher (fun _ => True) (nestingBound source.length) .building .main
  unfold Node.ofSource at h
  generalize Rule.matcher (nestingBound source.length) .building .main = p at h lays
  split at h
  · rename_i d m log run
    cases h
    exact ⟨d, (lays _ _ _ _ run (fun _ _ => trivial) trivial).2 d [n] rfl⟩
  · cases h

/-- A source that is no program is refused at a place in it. -/
theorem Node.reaches_ofSource {source : List Char} {log : Attempts} (h : Node.ofSource source = .error log) :
    ∃ d, (Cursor.ofList source).Reaches d ∧ d.offset = log.offset := by
  have lays := Rule.lays_matcher (fun o => ∃ d, (Cursor.ofList source).Reaches d ∧ d.offset = o)
    (nestingBound source.length) .building .main
  unfold Node.ofSource at h
  generalize Rule.matcher (nestingBound source.length) .building .main = p at h lays
  split at h
  · cases h
  · rename_i run
    cases h
    exact (lays _ _ _ _ run (fun d hd => ⟨d, hd, rfl⟩) ⟨_, .refl _, rfl⟩).1

end HostExpr
