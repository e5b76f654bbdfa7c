import HostExpr.Proofs.Grammar.Program
import HostExpr.Proofs.Syntax.Formula

/-!
# What stands beside the operands of a formula

An operand is followed by the end of the source, by a closing parenthesis, or by a blank, an operator and another
blank. The grammar skips the blanks, and of all that it could take an operator for it takes it for what it is.
-/

namespace HostExpr

open Pattern

/-- One blank or comment. -/
def blankOrComment : Pattern :=
  first
    [.text [' '], .text ['\t'], .text ['\r'], .text ['\n'],
      all [.text ['/', '/'], .star (.seq (.notAhead (.text ['\n'])) (.one .any))],
      all [.text ['/', '*'], .star (.seq (.notAhead (.text ['*', '/'])) (.one .any)), .text ['*', '/']]]

/-- A blank is skipped where no further one and no comment stands behind it. -/
theorem skipTrivia_blank {p : Pattern} (start : List Char) (h : p.refused start false) (more : List Char)
    (fuel o : Nat) : skipTrivia fuel ⟨' ' :: (start ++ more), o⟩ = ⟨start ++ more, o + 1⟩ := by
  let rules : Mode → Rule → Matcher := fun _ _ => .move fun _ => none
  have refused : blankOrComment.verdict (fun _ => false) start false = .fails := by
    have idles : trivia.verdict (fun _ => false) start false = .idles :=
      of_decide_eq_true (Bool.and_eq_true_iff.1 h).1
    rw [show trivia = .star blankOrComment from rfl, verdict] at idles
    split at idles
    · assumption
    · cases idles
  -- the repetition makes one round, over the blank, and stops in front of the text
  have stop : (blankOrComment.matcherWith rules id fuel .token).Gives ⟨start ++ more, o + 1⟩ none := by
    have starts : Cursor.Starts start false ⟨start ++ more, o + 1⟩ := ⟨more, rfl, fun h => by cases h⟩
    have holds := holds_verdict rules id (fun _ => false) fuel (fun _ _ h => by cases h) rfl starts blankOrComment .token
    rwa [refused] at holds
  have blank : (blankOrComment.matcherWith rules id fuel .token).Gives ⟨' ' :: (start ++ more), o⟩
      (some (⟨start ++ more, o + 1⟩, [])) := .alt_left fun _ => rfl
  have run : (trivia.matcherWith rules id fuel .token).Gives ⟨' ' :: (start ++ more), o⟩
      (some (⟨start ++ more, o + 1⟩, [] ++ [])) := .star rfl (Matcher.Gives.rounds_cons blank (.rounds_nil stop fuel))
  obtain ⟨log, run⟩ := run.run .start
  unfold skipTrivia
  simp only [true_or, if_true]
  rw [run]

namespace Syntax

/-- What cannot go on with an operand, whatever stands behind it. -/
def notBehind : List Pattern := [postfixOp, .text ['('], .text ['['], .text [','], .rule .dims]

theorem refused_symbol (op : BetweenOp) : ∀ p ∈ notBehind, p.refused (op.symbol ++ [' ']) false :=
  of_bindingOrder (by decide +kernel) op

/-- What the operator and the blank behind it rule out fails there. -/
theorem fails_symbol {p : Pattern} {op : BetweenOp} (h : p.refused (op.symbol ++ [' ']) false) (fuel : Nat)
    (mode : Mode) (v : List Char) (o : Nat) : p.Fails fuel mode ⟨op.symbol ++ ' ' :: v, o⟩ := by
  rw [List.append_cons]
  exact fails_at _ h v o

theorem settled_symbol (op : BetweenOp) (v : List Char) (o : Nat) : Cursor.Settled ⟨op.symbol ++ ' ' :: v, o⟩ := by
  rw [List.append_cons]
  exact Cursor.settled_of_refused _ (refused_symbol op postfixOp (.head _)) v o

/-- The operators between two operands, in the order in which they are tried. -/
def infixRules : List Rule :=
  [.orOp, .andOp, .eqOp, .neOp, .leOp, .geOp, .ltOp, .gtOp, .addOp, .subOp, .mulOp, .divOp, .remOp]

def infixBefore (op : BetweenOp) : List Rule := infixRules.takeWhile (· ≠ SpelledBy.betweenRule op)

theorem refused_infixBefore (op : BetweenOp) :
    ∀ r ∈ infixBefore op, (Pattern.rule r).refused (op.symbol ++ [' ']) false :=
  of_bindingOrder (by decide +kernel) op

theorem infixOp_eq (op : BetweenOp) : ∃ behind,
    infixOp = first ((infixBefore op).map .rule ++ .rule (SpelledBy.betweenRule op) :: behind) := by
  rcases op with (_ | _) | (_ | _ | _ | _ | _ | _) | (_ | _ | _ | _ | _) <;> exact ⟨_, rfl⟩

/-- An operator between blanks is the operator that is written. -/
theorem matches_infixOp (op : BetweenOp) (fuel : Nat) (v : List Char) (o : Nat) :
    infixOp.Matches (fuel + 1) .building ⟨op.symbol ++ ' ' :: v, o⟩ (.behind o op.symbol (' ' :: v))
      [.mk (SpelledBy.betweenRule op) ⟨op.symbol ++ ' ' :: v, o⟩ (.behind o op.symbol (' ' :: v)) []] := by
  obtain ⟨behind, choice⟩ := infixOp_eq op
  have here : (Pattern.rule (SpelledBy.betweenRule op)).Matches (fuel + 1) .building ⟨op.symbol ++ ' ' :: v, o⟩
      (.behind o op.symbol (' ' :: v))
      [.mk (SpelledBy.betweenRule op) ⟨op.symbol ++ ' ' :: v, o⟩ (.behind o op.symbol (' ' :: v)) []] := by
    rcases op with (_ | _) | (_ | _ | _ | _ | _ | _) | (_ | _ | _ | _ | _)
    -- an operator of one character is one only if no other operator begins with it there
    case compare.lt => exact matches_token rfl rfl (passes_operator '<' (by simp) o)
    case compare.gt => exact matches_token rfl rfl (passes_operator '>' (by simp) o)
    case arith.add => exact matches_token rfl rfl (passes_operator '+' (by simp) o)
    case arith.sub => exact matches_token rfl rfl (passes_operator '-' (by simp) o)
    case arith.mul => exact matches_token rfl rfl (passes_operator '*' (by simp) o)
    case arith.div => exact matches_token rfl rfl (passes_operator '/' (by simp) o)
    case arith.rem => exact matches_token rfl rfl (passes_operator '%' (by simp) o)
    all_goals exact matches_node rfl rfl (matches_text _ (' ' :: v) o)
  rw [choice]
  refine matches_first _ behind ?_ here
  intro q hq
  obtain ⟨r, hr, rfl⟩ := List.mem_map.1 hq
  exact fails_symbol (refused_infixBefore op r hr) _ _ v o

/-- An operator between two operands is no assignment: the two equality signs of a comparison are none. -/
theorem fails_assignOp (op : BetweenOp) (fuel : Nat) (mode : Mode) (v : List Char) (o : Nat) :
    (Pattern.rule .assignOp).Fails fuel mode ⟨op.symbol ++ ' ' :: v, o⟩ := by
  by_cases equality : op = .compare .eq
  · subst equality
    cases fuel with
    | zero => exact fails_zero _
    | succ fuel =>
      -- the sign of an assignment must not be followed by another one
      have single : (Pattern.rule .assignEq).Stops fuel ('=' :: '=' :: ' ' :: v) := by
        cases fuel with
        | zero => exact fun o => fails_zero _
        | succ fuel =>
          have first : (text ['=']).Passes fuel ['='] ('=' :: ' ' :: v) := passes_text ['='] _
          have second : (notAhead (text ['='])).Stops fuel ('=' :: ' ' :: v) :=
            fun o => .notAhead_of_matches (matches_text ['='] (' ' :: v) o)
          exact fun o => fails_token rfl (first.seq_stops second o)
      refine fails_token rfl (fails_first fun q hq => ?_)
      simp only [List.mem_cons, List.not_mem_nil, or_false] at hq
      rcases hq with rfl | rfl | rfl | rfl | rfl | rfl
      case inr.inr.inr.inr.inr => exact single o
      all_goals exact stops_text _ _ (by decide) o
  · have refused : op ≠ .compare .eq → (Pattern.rule .assignOp).refused (op.symbol ++ [' ']) false :=
      of_bindingOrder (by decide +kernel) op
    exact fails_symbol (refused equality) fuel mode v o

/-! ## Behind an operand -/

/-- What stands behind an operand. -/
inductive Behind : List Char → Prop
  | atEnd : Behind []
  | closing (s : List Char) : Behind (')' :: s)
  | operator (op : BetweenOp) (v : List Char) : Behind (' ' :: (op.symbol ++ ' ' :: v))

end Syntax

/-- The place past a blank. -/
def Cursor.pastBlank (c : Cursor) : Cursor :=
  match c.rest with
  | ' ' :: s => ⟨s, c.offset + 1⟩
  | _ => c

namespace Syntax.Behind

variable {s : List Char}

theorem endsName (h : Behind s) : EndsName s := by
  intro c t split
  cases h with
  | atEnd => cases split
  | closing s =>
    cases split
    decide
  | operator op v =>
    cases split
    decide

theorem fails {p : Pattern} (hp : p ∈ notBehind) (h : Behind s) (fuel : Nat) (mode : Mode) (o : Nat) :
    p.Fails fuel mode (Cursor.pastBlank ⟨s, o⟩) := by
  cases h with
  | atEnd =>
    have refused : ∀ p ∈ notBehind, p.refused [] true := by decide +kernel
    exact fails_at_end (refused p hp) o
  | closing s =>
    have refused : ∀ p ∈ notBehind, p.refused [')'] false := by decide +kernel
    exact fails_at [')'] (refused p hp) s o
  | operator op v => exact fails_symbol (refused_symbol op p hp) fuel mode v (o + 1)

theorem fails_assignOp (h : Behind s) (fuel : Nat) (mode : Mode) (o : Nat) :
    (Pattern.rule .assignOp).Fails fuel mode (Cursor.pastBlank ⟨s, o⟩) := by
  cases h with
  | atEnd => exact fails_at_end (by decide) o
  | closing s => exact fails_at [')'] (by decide) s o
  | operator op v => exact Syntax.fails_assignOp op fuel mode v (o + 1)

/-- The blank behind an operand is skipped. -/
theorem skip (h : Behind s) (fuel o : Nat) : skipTrivia fuel ⟨s, o⟩ = Cursor.pastBlank ⟨s, o⟩ := by
  cases h with
  | atEnd => rfl
  | closing s => rfl
  | operator op v =>
    show skipTrivia fuel ⟨' ' :: (op.symbol ++ ' ' :: v), o⟩ = ⟨op.symbol ++ ' ' :: v, o + 1⟩
    rw [List.append_cons]
    exact skipTrivia_blank _ (refused_symbol op postfixOp (.head _)) v fuel o

theorem settled (h : Behind s) (o : Nat) : (Cursor.pastBlank ⟨s, o⟩).Settled := by
  cases h with
  | atEnd => exact Cursor.settled_nil o
  | closing s => exact fun _ => rfl
  | operator op v => exact settled_symbol op v (o + 1)

end Syntax.Behind

end HostExpr
