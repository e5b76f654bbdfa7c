import HostExpr.Proofs.Grammar.Program
import HostExpr.Proofs.Syntax.Operands

/-!
# Operators bind as the table says

A formula that is written with parentheses just where the table of operators asks for them is read as the tree it was
written from. Matching and assembling each follow the formula: the text of each part is a chain, and the pieces built
of it spell the part wherever the operators around it bind less.
-/

namespace HostExpr.Syntax

open Pattern

variable {fuel o : Nat} {w s : List Char} {ns : List Node}

/-! ## Whole expressions -/

/-- What stands behind a whole expression. -/
inductive Closes : List Char → Prop
  | atEnd : Closes []
  | closing (s : List Char) : Closes (')' :: s)

namespace Closes

theorem pastBlank (h : Closes s) (o : Nat) : (Cursor.behind o w s).pastBlank = .behind o w s := by
  cases h <;> rfl

theorem settled (h : Closes s) (o : Nat) : Cursor.Settled ⟨s, o⟩ := by
  cases h <;> exact fun _ => rfl

theorem fails (h : Closes s) {p : Pattern} (hp : p ∈ [furtherOperand, .rule .ternaryTail]) (fuel : Nat) (o : Nat) :
    p.Fails fuel .building ⟨s, o⟩ := by
  cases h with
  | atEnd =>
    have refused : ∀ p ∈ [furtherOperand, .rule .ternaryTail], p.refused [] true := by decide +kernel
    exact fails_at_end (refused p hp) o
  | closing s =>
    have refused : ∀ p ∈ [furtherOperand, .rule .ternaryTail], p.refused [')'] false := by decide +kernel
    exact fails_at [')'] (refused p hp) s o

end Closes

/-- The node of an expression that is one operation. -/
def expressionNode (w s : List Char) (o : Nat) (ns : List Node) : Node :=
  .mk .expression ⟨w ++ s, o⟩ (.behind o w s) [.mk .operation ⟨w ++ s, o⟩ (.behind o w s) ns]

/-- A chain that nothing follows is an expression, if it is no assignment. -/
theorem Chain.matches_exprOrAssign (h : Chain fuel w s o ns) (hs : Closes s) (enough : w.length ≤ fuel)
    (plain : (Pattern.rule .assignment).Fails (fuel + 2) .building ⟨w ++ s, o⟩) :
    exprOrAssign.Matches (fuel + 2) .building ⟨w ++ s, o⟩ (.behind o w s) [expressionNode w s o ns] := by
  have settled := hs.settled (o + byteLength w)
  have operation := h.operation enough (by rw [hs.pastBlank]; exact settled)
    (by rw [hs.pastBlank]; exact hs.fails (.head _) fuel _)
  rw [hs.pastBlank] at operation
  exact .alt_right plain (matches_expression operation (settled _) (hs.fails (.tail _ (.head _)) _ _))

/-! ## Parentheses -/

/-- The node of an expression in parentheses. -/
def parenNode (w s : List Char) (o : Nat) (ns : List Node) : Node :=
  .mk .paren ⟨bracketed true w ++ s, o⟩ (.behind o (bracketed true w) s) [expressionNode w (')' :: s) (o + 1) ns]

/-- The operands that are tried before parentheses. -/
def beforeParen : List Pattern :=
  [.rule .newArray, .rule .newSizedArray, .rule .newObject, .rule .inlineMap, .rule .inlineList, .rule .inlineArray]

theorem refused_beforeParen : ∀ p ∈ rule .negOp :: rule .notOp :: beforeParen, p.refused ['('] false := by decide +kernel

/-- An expression in parentheses that is more than a name is an operand. -/
theorem atomAt_paren (opens : Opens true (w ++ ')' :: s)) (enough : 4 * (w ++ ')' :: s).length + 6 ≤ fuel)
    (inside : exprOrAssign.Matches (fuel + 2) .building ⟨w ++ ')' :: s, o + 1⟩ (.behind (o + 1) w (')' :: s))
      [expressionNode w (')' :: s) (o + 1) ns]) :
    AtomAt (fuel + 3) (bracketed true w) s o (parenNode w s o ns) := by
  have text : bracketed true w ++ s = '(' :: (w ++ ')' :: s) := by simp [bracketed]
  have refused {p : Pattern} (hp : p ∈ rule .negOp :: rule .notOp :: beforeParen) :
      p.Fails (fuel + 3) .building ⟨'(' :: (w ++ ')' :: s), o⟩ :=
    fails_at ['('] (refused_beforeParen p hp) _ o
  -- the brackets might have been those of a cast
  have noCast : (rule .castOp).Fails (fuel + 3) .building ⟨'(' :: (w ++ ')' :: s), o⟩ :=
    fails_castOp opens (by omega) o
  have parts : Rule.paren.pattern.Matches (fuel + 2) .building ⟨'(' :: (w ++ ')' :: s), o⟩
      (.behind o (bracketed true w) s) [expressionNode w (')' :: s) (o + 1) ns] := by
    have opening : (Pattern.text ['(']).Matches (fuel + 2) .building ⟨'(' :: (w ++ ')' :: s), o⟩
        ⟨w ++ ')' :: s, o + 1⟩ [] :=
      matches_text ['('] (w ++ ')' :: s) o
    have closing : (Pattern.text [')']).Matches (fuel + 2) .building (.behind (o + 1) w (')' :: s))
        (.behind o (bracketed true w) s) [] := by
      -- the closing bracket ends where the bracketed text does
      have place : Cursor.behind (o + 1 + byteLength w) [')'] s = .behind o (bracketed true w) s := by
        have opening : '('.utf8Size = 1 := rfl
        simp only [Cursor.behind, bracketed, if_true, byteLength, byteLength_append, opening]
        congr 1
        omega
      rw [← place]
      exact matches_text [')'] s (o + 1 + byteLength w)
    refine matches_seq opening ?_
    rw [opens.settled]
    exact matches_seq inside closing
  refine ⟨⟨'(', _, text, by decide⟩, ?_, ?_⟩
  · rw [text]
    exact .alt_right noCast (.alt_right (refused (.head _)) (refused (.tail _ (.head _))))
  · have node := matches_node rfl rfl parts
    rw [← text] at node
    refine matches_first beforeParen [.rule .call, literal, .rule .ident] ?_ node
    rw [text]
    exact fun q hq => refused (.tail _ (.tail _ hq))

/-! ## Formulas -/

theorem starts_bracketed (needed : Bool) (h : ∃ x t, w = x :: t ∧ opensFormula x) :
    ∃ x t, bracketed needed w = x :: t ∧ opensFormula x := by
  cases needed with
  | false => exact h
  | true => exact ⟨'(', _, rfl, by decide⟩

theorem starts_append (h : ∃ x t, w = x :: t ∧ opensFormula x) (s : List Char) :
    ∃ x t, w ++ s = x :: t ∧ opensFormula x := by
  obtain ⟨x, t, rfl, opens⟩ := h
  exact ⟨x, t ++ s, rfl, opens⟩

/-- The text of a formula starts with a name, a parenthesis or an operator in front of an operand. -/
theorem Formula.starts (t : Formula) : ∃ x v, t.text = x :: v ∧ opensFormula x := by
  induction t with
  | name w => exact ⟨w.first, w.others, rfl, opensFormula_name w⟩
  | unary op t _ => exact ⟨op.symbol, _, rfl, by cases op <;> decide⟩
  | binary op l r ihl _ => exact starts_append (starts_bracketed _ ihl) _

/-- Wherever it is followed by what follows operands, the text is a chain of which the tree of the formula is built. -/
def Reads (t : Formula) (w : List Char) (level : Nat) : Prop :=
  ∀ (fuel o : Nat) (s : List Char), Behind s → 4 * (w ++ s).length + 16 ≤ fuel →
    ∃ ns, Chain fuel w s o ns ∧ SpelledBy t.IsTree level ns ∧
      (Pattern.rule .assignment).Fails (fuel + 2) .building ⟨w ++ s, o⟩

/-- Wherever it is followed by what follows operands, the text is a name or in parentheses, and the tree of the formula
is built of it. -/
def ReadsAtom (t : Formula) (w : List Char) : Prop :=
  ∀ (fuel o : Nat) (s : List Char), Behind s → 4 * (w ++ s).length + 16 ≤ fuel →
    ∃ n, AtomAt fuel w s o n ∧ n.rule ∈ operandRules ∧ BuiltBy t.IsTree n

theorem ReadsAtom.reads {t : Formula} (h : ReadsAtom t w) (level : Nat) : Reads t w level := by
  intro fuel o s hs enough
  obtain ⟨n, atom, kind, built⟩ := h fuel o s hs enough
  exact ⟨[n], .single hs (atom.operand hs), .operand built kind level, atom.fails_assignment hs⟩

/-- A name is read as an operand. -/
theorem readsAtom_name (w : Identifier) : ReadsAtom (.name w) w.text := by
  intro fuel o s hs enough
  obtain ⟨fuel, rfl⟩ : ∃ f, fuel = f + 2 := ⟨fuel - 2, by omega⟩
  rw [List.length_append] at enough
  exact ⟨_, atomAt_name w hs (by omega) o, (by decide : Rule.ident ∈ operandRules), .name w s o⟩

/-- A formula that is more than a name is read as an operand if it stands in parentheses. -/
theorem Reads.paren {t : Formula} {level : Nat} (h : Reads t t.text level) (compound : t.level ≤ bindingOrder.length) :
    ReadsAtom t (bracketed true t.text) := by
  intro fuel o s hs enough
  obtain ⟨fuel, rfl⟩ : ∃ f, fuel = f + 3 := ⟨fuel - 3, by omega⟩
  -- more than a name stands in the parentheses, so that they are no cast
  have opens : Opens true (t.text ++ ')' :: s) := by
    have all := t.opens_closing s
    rwa [decide_eq_true compound] at all
  simp only [bracketed, if_true, List.cons_append, List.append_assoc, List.length_cons, List.length_append] at enough
  have room : 4 * (t.text ++ ')' :: s).length + 16 ≤ fuel := by
    simp only [List.length_append, List.length_cons]
    simp only [List.length_nil] at enough
    omega
  obtain ⟨ns, chain, spelled, plain⟩ := h fuel (o + 1) _ (.closing s) room
  have long : t.text.length ≤ fuel := by
    rw [List.length_append] at room
    omega
  have inside := chain.matches_exprOrAssign (.closing s) long plain
  have kind : Rule.paren ∈ operandRules := by decide
  exact ⟨_, atomAt_paren opens (by omega) inside, kind, .paren (.expression spelled _ _ _ _) _ _⟩

/-- With parentheses around all that is more than a name, a formula is read as one operand. -/
theorem Reads.atom {t : Formula} (h : Reads t t.text t.level) :
    ReadsAtom t (bracketed (t.level ≤ bindingOrder.length) t.text) := by
  by_cases compound : t.level ≤ bindingOrder.length
  · rw [decide_eq_true compound]
    exact h.paren compound
  · rw [decide_eq_false compound]
    cases t with
    | name w => exact readsAtom_name w
    | unary op t => exact absurd (Nat.le_refl _) compound
    | binary op l r => exact absurd (Nat.le_of_lt op.level_lt) compound

/-- With parentheses around it a formula is held together tighter than by any operator. -/
theorem Reads.bracketed {t : Formula} (h : Reads t t.text t.level) (needed : Bool)
    (compound : needed → t.level ≤ bindingOrder.length) :
    Reads t (bracketed needed t.text) (if needed then bindingOrder.length else t.level) := by
  cases needed with
  | false => exact h
  | true => exact (h.paren (compound rfl)).reads _

/-- An operator in front of a name or a parenthesis. -/
theorem ReadsAtom.unary {t : Formula} (h : ReadsAtom t w) (op : UnaryOp) (level : Nat) :
    Reads (.unary op t) (op.symbol :: w) level := by
  intro fuel o s hs enough
  obtain ⟨fuel, rfl⟩ : ∃ f, fuel = f + 1 := ⟨fuel - 1, by omega⟩
  rw [List.cons_append, List.length_cons] at enough
  obtain ⟨n, atom, kind, built⟩ := h (fuel + 1) (o + 1) s hs (by omega)
  have refused : (Pattern.rule .assignment).refused [op.symbol] false := by cases op <;> decide +kernel
  exact ⟨_, .single hs (atom.operand_front op o hs), .front built kind op _ _ level,
    fails_at [op.symbol] refused (w ++ s) o⟩

/-- Two texts with an operator between them. -/
theorem Reads.binary {l r : Formula} {w' : List Char} {low high : Nat} {op : BetweenOp} (left : Reads l w low)
    (right : Reads r w' high) (opens : ∃ x t, w' = x :: t ∧ opensFormula x) (hl : op.level ≤ low)
    (hr : op.level < high) : Reads (.binary op l r) (w ++ ' ' :: (op.symbol ++ ' ' :: w')) op.level := by
  intro fuel o s hs enough
  obtain ⟨fuel, rfl⟩ : ∃ f, fuel = f + 1 := ⟨fuel - 1, by omega⟩
  have split : (w ++ ' ' :: (op.symbol ++ ' ' :: w')) ++ s = w ++ ' ' :: (op.symbol ++ ' ' :: (w' ++ s)) := by simp
  rw [split] at enough
  have rest : 4 * (w' ++ s).length + 16 ≤ fuel + 1 := by
    simp only [List.length_append, List.length_cons] at enough ⊢
    omega
  obtain ⟨ns, chain, spelled, plain⟩ := left (fuel + 1) o _ (.operator op (w' ++ s)) enough
  obtain ⟨ms, chain', spelled', _⟩ := right (fuel + 1) (Chain.offsetBehind op w o) s hs rest
  refine ⟨_, chain.binary (starts_append opens s) chain', spelled.binary spelled' hl hr _ _, ?_⟩
  rw [split]
  exact plain

/-- The text of a formula is read as the formula. -/
theorem Formula.reads (t : Formula) : Reads t t.text t.level := by
  -- on the formula: a left operand without parentheses binds at least as tightly as the operator, a right one tighter
  induction t with
  | name w => exact (readsAtom_name w).reads _
  | unary op t ih => exact ih.atom.unary op _
  | binary op l r ihl ihr =>
    have below := op.level_lt
    have left := ihl.bracketed (l.level < op.level) (by simp; omega)
    have right := ihr.bracketed (r.level ≤ op.level) (by simp; omega)
    refine left.binary right (starts_bracketed _ r.starts) ?_ ?_ <;>
      · simp only [decide_eq_true_eq]
        split <;> omega

/-! ## Programs -/

/-- The word `return` is passed where a blank follows. -/
theorem matches_kwReturn (fuel : Nat) (v : List Char) (o : Nat) :
    (Pattern.rule .kwReturn).Matches (fuel + 1) .building ⟨['r', 'e', 't', 'u', 'r', 'n'] ++ ' ' :: v, o⟩
      (.behind o ['r', 'e', 't', 'u', 'r', 'n'] (' ' :: v)) [] := by
  have ends : EndsName (' ' :: v) := by
    intro c t split
    cases split
    decide
  exact matches_silent rfl rfl ((passes_text _ _).notAhead (stops_identChar ends) o)

/-- A statement that returns an expression. -/
theorem matches_returnStmt {v : List Char} {n : Node} {fuel o : Nat} (opens : ∃ x t, v = x :: t ∧ opensFormula x)
    (value : exprOrAssign.Matches (fuel + 1) .building ⟨v, o + 7⟩ (.behind (o + 7) v []) [n]) :
    (Pattern.rule .returnStmt).Matches (fuel + 2) .building ⟨['r', 'e', 't', 'u', 'r', 'n'] ++ ' ' :: v, o⟩
      (.behind (o + 7) v [])
      [.mk .returnStmt ⟨['r', 'e', 't', 'u', 'r', 'n'] ++ ' ' :: v, o⟩ (.behind (o + 7) v []) [n]] := by
  refine matches_node rfl rfl (matches_seq (matches_kwReturn fuel v o) (.opt ?_))
  have skip := skip_of_opens (starts_append opens []) (fuel + 1) (o + 6)
  rw [List.append_nil] at skip
  show exprOrAssign.Matches (fuel + 1) .building (skipTrivia (fuel + 1) ⟨' ' :: v, o + 6⟩) _ _
  rw [skip]
  exact value

theorem buildStmts_return {n : Node} {e : Expr} {c d : Cursor} {limit : Nat} (value : buildExpr limit 0 n = .ok e) :
    buildStmts limit [.mk .returnStmt c d [n]] = .ok [.returns (some e)] := by
  simp only [buildStmts, buildStmt, value]
  rfl

/-- The text of a formula behind the word `return` is the program that returns the tree of the formula, if expressions
may nest deep enough. -/
theorem parse_formula (t : Formula) : ∃ enough, ∀ limit, enough ≤ limit →
    ∃ e, t.IsTree e ∧ parseWithLimit limit ("return " ++ String.ofList t.text) = .ok [.returns (some e)] := by
  have source : ("return " ++ String.ofList t.text).toList = ['r', 'e', 't', 'u', 'r', 'n'] ++ ' ' :: t.text := by
    simp
  obtain ⟨ns, chain, spelled, plain⟩ := t.reads (16 * (t.text.length + 7) + 27) 7 [] .atEnd (by simp; omega)
  have value := chain.matches_exprOrAssign .atEnd (by omega) plain
  rw [List.append_nil] at value
  have statement := matches_returnStmt (o := 0) t.starts value
  have builds : BuiltBy t.IsTree (expressionNode t.text [] 7 ns) := .expression spelled _ _ _ _
  obtain ⟨enough, built⟩ := builds
  refine ⟨enough, fun limit room => ?_⟩
  obtain ⟨e, expression, tree⟩ := built limit 0 room
  refine ⟨e, tree, ?_⟩
  -- no compound statement starts like this, and a simple one that does returns something
  let text := ['r', 'e', 't', 'u', 'r', 'n'] ++ ' ' :: t.text
  have fuel : statementFuel text = 16 * (t.text.length + 7) + 30 := by simp [statementFuel, text]
  have refused : compoundStmt.refused ['r', 'e', 't'] false := by decide +kernel
  have settled : (Cursor.ofList text).Settled := Cursor.settled_of_refused ['r', 'e', 't'] refused _ 0
  have compound : compoundStmt.Fails (statementFuel text) .building (.ofList text) := fails_at ['r', 'e', 't'] refused _ 0
  have simple : simpleStmt.Matches (statementFuel text) .building (.ofList text) (.behind (0 + 7) t.text [])
      [.mk .returnStmt (.ofList text) (.behind (0 + 7) t.text []) [expressionNode t.text [] 7 ns]] := by
    rw [fuel]
    exact .alt_left statement
  rw [show text = ("return " ++ String.ofList t.text).toList from source.symm] at settled compound simple
  rw [parseWithLimit_of_matches limit settled compound simple]
  exact buildStmts_return expression

end HostExpr.Syntax
