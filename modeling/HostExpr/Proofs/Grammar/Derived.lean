import HostExpr.Grammar.Match

/-!
# Parse trees follow the grammar

A match of a rule has only such nodes inside that the pattern of the rule names.
-/

namespace HostExpr

/-- The rules a pattern names outside of look-aheads. -/
def Pattern.offers : Pattern → List Rule
  | .rule r => [r]
  | .seq p q | .alt p q => p.offers ++ q.offers
  | .star p | .opt p => p.offers
  | .nothing | .text _ | .one _ | .atEnd | .ahead _ | .notAhead _ => []

/-- The nodes inside a node are of rules that the pattern of its own rule names, and so on inside. -/
inductive Node.Derived : Node → Prop
  | mk (r : Rule) (a b : Cursor) (ns : List Node) (offered : ∀ n ∈ ns, n.rule ∈ r.pattern.offers)
    (inside : ∀ n ∈ ns, n.Derived) : (Node.mk r a b ns).Derived

namespace Node.Derived

variable {r : Rule} {a b : Cursor} {ns : List Node}

theorem offered (h : (Node.mk r a b ns).Derived) : ∀ n ∈ ns, n.rule ∈ r.pattern.offers := by
  cases h with
  | mk _ _ _ _ offered inside => exact offered

theorem inside (h : (Node.mk r a b ns).Derived) : ∀ n ∈ ns, n.Derived := by
  cases h with
  | mk _ _ _ _ offered inside => exact inside

end Node.Derived

namespace Matcher

/-- All nodes that a match builds are of the given rules and follow the grammar. -/
def Builds (rules : List Rule) (p : Matcher) : Prop :=
  ∀ c log d ns log', p c log = (some (d, ns), log') → ∀ n ∈ ns, n.rule ∈ rules ∧ n.Derived

variable {rules rules' : List Rule} {p q : Matcher}

theorem builds_move (f : Cursor → Option Cursor) : Builds rules (.move f) := by
  intro c log d ns log' run n hn
  simp only [move, Prod.mk.injEq, Option.map_eq_some_iff] at run
  obtain ⟨⟨_, _, _, rfl⟩, _⟩ := run
  cases hn

theorem Builds.seq (skip : Cursor → Cursor) (hp : Builds rules p) (hq : Builds rules' q) :
    Builds (rules ++ rules') (.seq skip p q) := by
  intro c log d ns log' run n hn
  simp only [Matcher.seq] at run
  split at run
  · cases run
  · rename_i c₁ ns₁ log₁ first
    split at run
    · cases run
    · rename_i c₂ ns₂ log₂ second
      cases run
      rcases List.mem_append.1 hn with hn | hn
      · obtain ⟨hr, hd⟩ := hp _ _ _ _ _ first n hn
        exact ⟨List.mem_append_left _ hr, hd⟩
      · obtain ⟨hr, hd⟩ := hq _ _ _ _ _ second n hn
        exact ⟨List.mem_append_right _ hr, hd⟩

theorem Builds.alt (hp : Builds rules p) (hq : Builds rules' q) :
    Builds (rules ++ rules') (.alt p q) := by
  intro c log d ns log' run n hn
  simp only [Matcher.alt] at run
  split at run
  · obtain ⟨hr, hd⟩ := hq _ _ _ _ _ run n hn
    exact ⟨List.mem_append_right _ hr, hd⟩
  · obtain ⟨hr, hd⟩ := hp _ _ _ _ _ run n hn
    exact ⟨List.mem_append_left _ hr, hd⟩

theorem Builds.rounds (skip : Cursor → Cursor) (hp : Builds rules p) (fuel : Nat) :
    Builds rules (.rounds skip p fuel) := by
  induction fuel with
  | zero =>
    intro c log d ns log' run n hn
    cases run
    cases hn
  | succ fuel ih =>
    intro c log d ns log' run n hn
    simp only [Matcher.rounds] at run
    split at run
    · cases run
      cases hn
    · rename_i c₁ ns₁ log₁ first
      split at run
      · cases run
      · rename_i c₂ ns₂ log₂ others
        cases run
        rcases List.mem_append.1 hn with hn | hn
        · exact hp _ _ _ _ _ first n hn
        · exact ih _ _ _ _ _ others n hn

theorem Builds.star (skip : Cursor → Cursor) (fuel : Nat) (hp : Builds rules p) :
    Builds rules (.star skip fuel p) := by
  intro c log d ns log' run n hn
  simp only [Matcher.star] at run
  split at run
  · cases run
    cases hn
  · rename_i c₁ ns₁ log₁ first
    split at run
    · cases run
    · rename_i c₂ ns₂ log₂ others
      cases run
      rcases List.mem_append.1 hn with hn | hn
      · exact hp _ _ _ _ _ first n hn
      · exact hp.rounds skip fuel _ _ _ _ _ others n hn

theorem Builds.opt (hp : Builds rules p) : Builds rules (.opt p) := by
  intro c log d ns log' run n hn
  simp only [Matcher.opt] at run
  split at run
  · cases run
    cases hn
  · exact hp _ _ _ _ _ run n hn

theorem builds_ahead : Builds rules (.ahead p) := by
  intro c log d ns log' run n hn
  simp only [Matcher.ahead] at run
  split at run
  · cases run
  · cases run
    cases hn

theorem builds_notAhead : Builds rules (.notAhead p) := by
  intro c log d ns log' run n hn
  simp only [Matcher.notAhead] at run
  split at run
  · cases run
    cases hn
  · cases run

/-- The node of a rule is one that follows the grammar, if those inside do. -/
theorem Builds.node (mode : Mode) {r : Rule} (hp : Builds r.pattern.offers p) :
    Builds [r] (.node mode r p) := by
  intro c log d ns log' run n hn
  simp only [Matcher.node] at run
  split at run
  · cases run
  · rename_i inner log₁ body
    cases run
    split at hn
    · obtain rfl := List.mem_singleton.1 hn
      have inside := hp _ _ _ _ _ body
      refine ⟨.head [], .mk r c d inner ?_ ?_⟩
      · exact fun n hn => (inside n hn).1
      · exact fun n hn => (inside n hn).2
    · cases hn

end Matcher

/-- A pattern builds only nodes of the rules it names. -/
theorem Pattern.builds_matcherWith {rules : Mode → Rule → Matcher} (skip : Cursor → Cursor) (fuel : Nat)
    (h : ∀ mode r, (rules mode r).Builds [r]) (p : Pattern) (mode : Mode) :
    (p.matcherWith rules skip fuel mode).Builds p.offers := by
  induction p generalizing mode with
  | nothing | text _ | one _ | atEnd => exact Matcher.builds_move _
  | rule r => exact h mode r
  | seq p q ihp ihq => exact (ihp mode).seq _ (ihq mode)
  | alt p q ihp ihq => exact (ihp mode).alt (ihq mode)
  | star p ih => exact (ih mode).star _ fuel
  | opt p ih => exact (ih mode).opt
  | ahead p ih => exact Matcher.builds_ahead
  | notAhead p ih => exact Matcher.builds_notAhead

/-- A rule builds only nodes of its own. -/
theorem Rule.builds_matcher (fuel : Nat) (mode : Mode) (r : Rule) :
    (Rule.matcher fuel mode r).Builds [r] := by
  induction fuel generalizing mode r with
  | zero =>
    rw [Rule.matcher]
    exact Matcher.builds_move _
  | succ fuel ih =>
    rw [Rule.matcher]
    exact .node mode (r.pattern.builds_matcherWith _ fuel ih _)

/-- The parse tree of a source follows the grammar, from its root on. -/
theorem Node.ofSource_derived {source : List Char} {n : Node} (h : Node.ofSource source = .ok n) :
    n.rule = .main ∧ n.Derived := by
  have built := Rule.builds_matcher (nestingBound source.length) .building .main
  unfold Node.ofSource at h
  generalize Rule.matcher (nestingBound source.length) .building .main = p at h built
  split at h
  · rename_i c m log run
    obtain ⟨hr, hd⟩ := built _ _ _ _ _ run m (.head [])
    injection h with same
    subst same
    exact ⟨List.mem_singleton.1 hr, hd⟩
  · cases h

end HostExpr
