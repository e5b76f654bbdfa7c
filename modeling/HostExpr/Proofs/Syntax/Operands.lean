import HostExpr.Proofs.Syntax.Casts

/-!
# Operands of formulas

A name or a parenthesis, with an operator in front of it or not, is matched as an operand, up to the operator behind it.
A name is none of the words that the grammar looks for first.
-/

namespace HostExpr.Syntax

open Pattern

variable {fuel o : Nat} {w s : List Char} {n : Node} {ns ms : List Node}

/-! ## Operands -/

/-- What a name or a parenthesis starts with. -/
def opensAtom (x : Char) : Bool := startsName x || x = '('

/-- A name or a formula in parentheses, matched as an operand without operators around it. -/
structure AtomAt (fuel : Nat) (w s : List Char) (o : Nat) (n : Node) : Prop where
  opens : ∃ x t, w ++ s = x :: t ∧ opensAtom x
  noFront : prefixOp.Fails fuel .building ⟨w ++ s, o⟩
  whole : primary.Matches fuel .building ⟨w ++ s, o⟩ (.behind o w s) [n]

theorem opensFormula_of_opensAtom {x : Char} (h : opensAtom x) : opensFormula x := by
  simp only [opensAtom, opensFormula, Bool.or_eq_true] at h ⊢
  rcases h with name | paren
  · exact .inl (.inl (.inl name))
  · exact .inl (.inl (.inr paren))

/-- A place where a formula starts is one where nothing is skipped, also past a blank. -/
theorem settled_of_opens (h : ∃ x t, w ++ s = x :: t ∧ opensFormula x) (o : Nat) : Cursor.Settled ⟨w ++ s, o⟩ := by
  obtain ⟨x, t, split, opens⟩ := h
  rw [split]
  exact Cursor.settled_of_refused [x] (refused_of_opensFormula opens _ (.head _)) t o

theorem skip_of_opens (h : ∃ x t, w ++ s = x :: t ∧ opensFormula x) (fuel o : Nat) :
    skipTrivia fuel ⟨' ' :: (w ++ s), o⟩ = ⟨w ++ s, o + 1⟩ := by
  obtain ⟨x, t, split, opens⟩ := h
  rw [split]
  exact skipTrivia_blank [x] (refused_of_opensFormula opens _ (.head _)) t fuel o

namespace AtomAt

theorem settled (h : AtomAt fuel w s o n) : Cursor.Settled ⟨w ++ s, o⟩ := by
  obtain ⟨x, t, split, opens⟩ := h.opens
  exact settled_of_opens ⟨x, t, split, opensFormula_of_opensAtom opens⟩ o

/-- Behind a primary the blank is skipped, and no operator of its own follows. -/
theorem ended (h : AtomAt fuel w s o n) (hs : Behind s) :
    (seq primary (star postfixOp)).Matches fuel .building ⟨w ++ s, o⟩ (Cursor.behind o w s).pastBlank [n] := by
  have noBack : (star postfixOp).Matches fuel .building (skipTrivia fuel (.behind o w s)) (Cursor.behind o w s).pastBlank
      [] := by
    rw [Cursor.behind, hs.skip]
    exact matches_none (hs.fails (.head _) fuel .building _)
  exact matches_seq h.whole noBack

/-- An operand without an operator in front of it. -/
theorem operand (h : AtomAt fuel w s o n) (hs : Behind s) :
    operand.Matches fuel .building ⟨w ++ s, o⟩ (Cursor.behind o w s).pastBlank [n] := by
  refine matches_seq (matches_none h.noFront) ?_
  rw [h.settled]
  exact h.ended hs

/-- The node of an operator in front of an operand. -/
def frontNode (op : UnaryOp) (v : List Char) (o : Nat) : Node :=
  .mk (SpelledBy.frontRule op) ⟨op.symbol :: v, o⟩ (.behind o [op.symbol] v) []

/-- The operator in front of a name or a parenthesis. -/
theorem front {o' : Nat} (h : AtomAt (fuel + 1) w s o' n) (op : UnaryOp) (o : Nat) :
    prefixOp.Matches (fuel + 1) .building ⟨op.symbol :: (w ++ s), o⟩ (.behind o [op.symbol] (w ++ s))
      [frontNode op (w ++ s) o] := by
  obtain ⟨x, t, split, opens⟩ := h.opens
  -- the operand starts with nothing that the sign would run on with
  have other : x ≠ '-' ∧ x ≠ '=' := by
    constructor <;>
      · rintro rfl
        exact absurd opens (by decide)
  have noCast : (Pattern.rule .castOp).refused [op.symbol] false := by cases op <;> decide +kernel
  refine .alt_right (fails_at [op.symbol] noCast (w ++ s) o) ?_
  cases op with
  | neg =>
    refine .alt_left (matches_token rfl rfl (passes_operator '-' ?_ o))
    simp [split, other.1.symm, other.2.symm]
  | not =>
    refine .alt_right (fails_at ['!'] (by decide) (w ++ s) o) (matches_token rfl rfl (passes_operator '!' ?_ o))
    simp [split, other.2.symm]

/-- An operand with an operator in front of it. -/
theorem operand_front (op : UnaryOp) (o : Nat) (h : AtomAt (fuel + 1) w s (o + 1) n) (hs : Behind s) :
    HostExpr.operand.Matches (fuel + 1) .building ⟨op.symbol :: (w ++ s), o⟩
      (Cursor.behind o (op.symbol :: w) s).pastBlank [frontNode op (w ++ s) o, n] := by
  have size : op.symbol.utf8Size = 1 := by cases op <;> rfl
  have place : Cursor.behind o [op.symbol] (w ++ s) = ⟨w ++ s, o + 1⟩ := by simp [Cursor.behind, byteLength, size]
  have stop : Cursor.behind (o + 1) w s = Cursor.behind o (op.symbol :: w) s := by
    simp [Cursor.behind, byteLength, size, Nat.add_assoc]
  have start : Cursor.Settled ⟨op.symbol :: (w ++ s), o⟩ := by
    have refused : (Pattern.rule .castOp).refused [op.symbol] false := by cases op <;> decide +kernel
    exact Cursor.settled_of_refused [op.symbol] refused (w ++ s) o
  have sign : (star prefixOp).Matches (fuel + 1) .building ⟨op.symbol :: (w ++ s), o⟩ ⟨w ++ s, o + 1⟩
      [frontNode op (w ++ s) o] := by
    have once := h.front op o
    rw [place] at once
    refine matches_once (start _) once ?_
    rw [h.settled]
    exact h.noFront
  refine matches_seq sign ?_
  rw [h.settled, ← stop]
  exact h.ended hs

/-- What starts with a name or a parenthesis in a formula is no assignment. -/
theorem fails_assignment (h : AtomAt fuel w s o n) (hs : Behind s) :
    (Pattern.rule .assignment).Fails (fuel + 2) .building ⟨w ++ s, o⟩ := by
  refine Pattern.fails_assignment h.whole ?_ ?_ ?_ <;> rw [Cursor.behind, hs.skip]
  · exact hs.fails (.head _) fuel .building _
  · exact hs.settled _
  · exact hs.fails_assignOp (fuel + 1) .building _

end AtomAt

/-! ## Names -/

/-- The node of a name. -/
def nameNode (w : Identifier) (s : List Char) (o : Nat) : Node :=
  .mk .ident ⟨w.text ++ s, o⟩ (.behind o w.text s) []

/-- What no name is taken for, from its first character on. -/
def notName : List Pattern :=
  [prefixOp, .rule .inlineMap, .rule .inlineList, .rule .inlineArray, .rule .paren, .rule .double, .rule .long,
    .rule .integer, .rule .string]

theorem refused_of_startsName {x : Char} (h : startsName x) : ∀ p ∈ notName, p.refused [x] false := by
  let Refused : Char → Prop := fun x => startsName x → ∀ p ∈ notName, p.refused [x] false
  have ascii : ∀ n : Fin 128, Refused (Char.ofNat n) := by decide +kernel
  exact of_ascii ascii (ascii_of_startsName h) h

/-- What starts with the word `new` is no name. -/
theorem fails_new {r : Rule} {p : Pattern} (parts : r.isToken = false) (split : r.pattern = seq (.rule .kwNew) p)
    (w : Identifier) (hs : Behind s) (mode : Mode) (o : Nat) :
    (Pattern.rule r).Fails fuel mode ⟨w.text ++ s, o⟩ := by
  cases fuel with
  | zero => exact fails_zero r
  | succ fuel =>
    refine fails_node parts ?_
    rw [split]
    exact fails_seq (fails_reserved [['n', 'e', 'w']] (by decide) rfl rfl w hs.endsName mode o)

/-- A name that no parenthesis follows is no call. -/
theorem fails_call (w : Identifier) (hs : Behind s) (enough : w.text.length ≤ fuel) (o : Nat) :
    (Pattern.rule .call).Fails (fuel + 2) .building ⟨w.text ++ s, o⟩ := by
  have name : (Pattern.rule .ident).Matches (fuel + 1) .building ⟨w.text ++ s, o⟩ (.behind o w.text s) [nameNode w s o] :=
    matches_token rfl rfl (passes_ident w hs.endsName enough o)
  refine fails_node rfl (fails_then name (fails_seq ?_))
  rw [Cursor.behind, hs.skip]
  exact hs.fails (by simp [notBehind]) (fuel + 1) .building _

/-- A name is an operand. -/
theorem atomAt_name (w : Identifier) (hs : Behind s) (enough : w.text.length ≤ fuel) (o : Nat) :
    AtomAt (fuel + 2) w.text s o (nameNode w s o) := by
  have refused {p : Pattern} (hp : p ∈ notName) : p.Fails (fuel + 2) .building ⟨w.text ++ s, o⟩ :=
    fails_at [w.first] (refused_of_startsName w.starts p hp) _ o
  have ident : (Pattern.rule .ident).Matches (fuel + 2) .building ⟨w.text ++ s, o⟩ (.behind o w.text s) [nameNode w s o] :=
    matches_token rfl rfl (passes_ident w hs.endsName (by omega) o)
  refine ⟨⟨w.first, w.others ++ s, rfl, by simp [opensAtom, w.starts]⟩, refused (.head _), ?_⟩
  -- an atom is tried in this order, and a name is no atom of the kinds in front
  refine matches_first [.rule .newArray, .rule .newSizedArray, .rule .newObject, .rule .inlineMap, .rule .inlineList,
    .rule .inlineArray, .rule .paren, .rule .call, literal] [] ?_ ident
  intro q hq
  simp only [List.mem_cons, List.not_mem_nil, or_false] at hq
  rcases hq with rfl | rfl | rfl | rfl | rfl | rfl | rfl | rfl | rfl
  · exact fails_new rfl rfl w hs .building o
  · exact fails_new rfl rfl w hs .building o
  · exact fails_new rfl rfl w hs .building o
  · exact refused (by simp [notName])
  · exact refused (by simp [notName])
  · exact refused (by simp [notName])
  · exact refused (by simp [notName])
  · exact fails_call w hs enough o
  · refine fails_first fun q hq => ?_
    simp only [List.mem_cons, List.not_mem_nil, or_false] at hq
    rcases hq with rfl | rfl | rfl | rfl | rfl | rfl
    · exact refused (by simp [notName])
    · exact refused (by simp [notName])
    · exact refused (by simp [notName])
    · exact refused (by simp [notName])
    · exact fails_reserved [['t', 'r', 'u', 'e'], ['f', 'a', 'l', 's', 'e']] (by decide) rfl rfl w hs.endsName .building o
    · exact fails_reserved [['n', 'u', 'l', 'l']] (by decide) rfl rfl w hs.endsName .building o

/-!
## Chains

The text of a formula is matched as a chain: a first operand, and rounds of an operator and another operand. The operands
of an operator and those of the operators inside of them come in one row; what is put in parentheses is one operand, with
a chain of its own inside.
-/

/-- The text is a first operand and further ones. Whatever the rounds behind it give, they go on to give from the first
operand on: the chain does not say yet where the operation ends. -/
def Chain (fuel : Nat) (w s : List Char) (o : Nat) (ns : List Node) : Prop :=
  ∃ (d : Cursor) (first others : List Node) (count : Nat),
    ns = first ++ others ∧ count ≤ w.length ∧ (∀ fuel, skipTrivia fuel d = d) ∧
      operand.Matches fuel .building ⟨w ++ s, o⟩ d first ∧
      ∀ rounds e ms,
        (Matcher.rounds (skipTrivia fuel) (furtherOperand.matcher fuel .building) rounds).Gives
          (Cursor.behind o w s).pastBlank (some (e, ms)) →
        (Matcher.rounds (skipTrivia fuel) (furtherOperand.matcher fuel .building) (rounds + count)).Gives d
          (some (e, others ++ ms))

namespace Chain

/-- A single operand. -/
theorem single (hs : Behind s)
    (h : operand.Matches fuel .building ⟨w ++ s, o⟩ (Cursor.behind o w s).pastBlank ns) : Chain fuel w s o ns := by
  refine ⟨_, ns, [], 0, by simp, by omega, ?_, h, fun _ _ _ rest => rest⟩
  exact hs.settled _

/-- The node of an operator between two operands. -/
def betweenNode (op : BetweenOp) (v : List Char) (o : Nat) : Node :=
  .mk (SpelledBy.betweenRule op) ⟨op.symbol ++ ' ' :: v, o⟩ (.behind o op.symbol (' ' :: v)) []

/-- Where the text behind an operator starts, past the blank. -/
def offsetBehind (op : BetweenOp) (w : List Char) (o : Nat) : Nat := o + byteLength w + 1 + byteLength op.symbol + 1

/-- Two chains with an operator between them. -/
theorem binary {op : BetweenOp} {w' : List Char} (left : Chain (fuel + 1) w (' ' :: (op.symbol ++ ' ' :: (w' ++ s))) o ns)
    (opens : ∃ x t, w' ++ s = x :: t ∧ opensFormula x) (right : Chain (fuel + 1) w' s (offsetBehind op w o) ms) :
    Chain (fuel + 1) (w ++ ' ' :: (op.symbol ++ ' ' :: w')) s o
      (ns ++ betweenNode op (w' ++ s) (o + byteLength w + 1) :: ms) := by
  obtain ⟨d, first, others, count, rfl, small, settled, here, onward⟩ := left
  obtain ⟨d', first', others', count', rfl, small', settled', here', onward'⟩ := right
  refine ⟨d, first, others ++ betweenNode op (w' ++ s) (o + byteLength w + 1) :: (first' ++ others'),
    count' + 1 + count, by simp, ?_, settled, by simpa using here, ?_⟩
  · simp only [List.length_append, List.length_cons]
    omega
  · intro rounds e ms rest
    have place : Cursor.behind (offsetBehind op w o) w' s = Cursor.behind o (w ++ ' ' :: (op.symbol ++ ' ' :: w')) s := by
      have blank : ' '.utf8Size = 1 := rfl
      simp only [Cursor.behind, offsetBehind, byteLength_append, byteLength, blank]
      congr 1
      omega
    rw [← place] at rest
    -- the round of the operator, between those of the two chains
    have round : furtherOperand.Matches (fuel + 1) .building ⟨op.symbol ++ ' ' :: (w' ++ s), o + byteLength w + 1⟩ d'
        (betweenNode op (w' ++ s) (o + byteLength w + 1) :: first') := by
      refine matches_seq (matches_infixOp op fuel (w' ++ s) (o + byteLength w + 1)) ?_
      rw [Cursor.behind, skip_of_opens opens]
      exact here'
    have further := round
    rw [← settled_symbol op (w' ++ s) (o + byteLength w + 1) (fuel + 1)] at further
    have all := onward (rounds + count' + 1) e _ (further.rounds_cons (onward' rounds e ms rest))
    simpa [Nat.add_assoc] using all

/-- A chain at the end of which nothing goes on is an operation. -/
theorem operation (h : Chain fuel w s o ns) (enough : w.length ≤ fuel)
    (settled : ∀ fuel, skipTrivia fuel (Cursor.behind o w s).pastBlank = (Cursor.behind o w s).pastBlank)
    (last : furtherOperand.Fails fuel .building (Cursor.behind o w s).pastBlank) :
    (Pattern.rule .operation).Matches (fuel + 1) .building ⟨w ++ s, o⟩ (Cursor.behind o w s).pastBlank
      [.mk .operation ⟨w ++ s, o⟩ (Cursor.behind o w s).pastBlank ns] := by
  obtain ⟨d, first, others, count, rfl, small, still, here, onward⟩ := h
  have stop : furtherOperand.Fails fuel .building (skipTrivia fuel (Cursor.behind o w s).pastBlank) := by
    rw [settled]
    exact last
  have all := onward (fuel + 1 - count) _ _ (.rounds_nil stop _)
  rw [List.append_nil, Nat.sub_add_cancel (by omega)] at all
  exact matches_operation here (still fuel) all

end Chain

end HostExpr.Syntax
