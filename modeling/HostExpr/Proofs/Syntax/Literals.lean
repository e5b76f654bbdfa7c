import HostExpr.Proofs.Grammar.Program
import HostExpr.Proofs.Grammar.Token
import HostExpr.Proofs.Syntax.Build

/-!
# Programs of one literal

A source that is a number or a quoted text, with a minus sign in front of it or not, is matched as one operand; its
program is one expression statement.
-/

namespace HostExpr

open Pattern

/-! ## What no literal is taken for -/

/-- The characters that a number or a quoted text starts with. -/
def startsLiteral (x : Char) : Bool := x.isDigit || x = '\'' || x = '"'

theorem ascii_of_startsLiteral {x : Char} (h : startsLiteral x) : x.toNat < 128 := by
  simp only [startsLiteral, Bool.or_eq_true, decide_eq_true_eq] at h
  rcases h with (digit | rfl) | rfl
  · simp only [Char.isDigit, Bool.and_eq_true, decide_eq_true_eq] at digit
    have le : x.toNat ≤ 57 := digit.2
    omega
  · decide
  · decide

/-- The statements that are no expressions. -/
def otherStatements : List Pattern := [.rule .returnStmt, .rule .importStmt, .rule .declaration]

/-- The operands that are tried before a literal. -/
def earlierOperands : List Pattern :=
  [.rule .newArray, .rule .newSizedArray, .rule .newObject, .rule .inlineMap, .rule .inlineList, .rule .inlineArray,
    .rule .paren, .rule .call]

/-- What a minus sign must not run on with. -/
def noSign : Pattern := first [.text ['-'], .text ['=']]

theorem refused_of_startsLiteral {x : Char} (h : startsLiteral x) :
    ∀ p ∈ compoundStmt :: prefixOp :: noSign :: otherStatements ++ earlierOperands, p.refused [x] false := by
  let Refused : Char → Prop := fun x =>
    startsLiteral x → ∀ p ∈ compoundStmt :: prefixOp :: noSign :: otherStatements ++ earlierOperands, p.refused [x] false
  have ascii : ∀ n : Fin 128, Refused (Char.ofNat n) := by decide +kernel
  exact of_ascii ascii (ascii_of_startsLiteral h) h

/-! ## Operands up to the end of the source -/

namespace Pattern

variable {fuel o o' : Nat} {ns ms : List Node} {x : Char} {t : List Char}

theorem settled_of_startsLiteral (h : startsLiteral x) : Cursor.Settled ⟨x :: t, o⟩ :=
  Cursor.settled_of_refused [x] (refused_of_startsLiteral h compoundStmt (.head _)) t o

/-- Where a literal starts, the operand is the literal. -/
theorem matches_primary (h : startsLiteral x) {d : Cursor} (lit : literal.Matches fuel .building ⟨x :: t, o⟩ d ns) :
    primary.Matches fuel .building ⟨x :: t, o⟩ d ns := by
  refine matches_first earlierOperands [.rule .ident] ?_ lit
  intro q hq
  exact fails_at [x] (refused_of_startsLiteral h q (List.mem_append_right _ hq)) t o

/-- An operand ends at the end of the source. -/
theorem matches_last {c : Cursor} (first : primary.Matches fuel .building c ⟨[], o⟩ ns) :
    (seq primary (star postfixOp)).Matches fuel .building c ⟨[], o⟩ ns := by
  have noBack : postfixOp.Fails fuel .building ⟨[], o⟩ := fails_at_end (by decide +kernel) o
  have row := matches_seq first (matches_none noBack)
  rwa [List.append_nil] at row

/-- A literal up to the end of the source is an operand. -/
theorem matches_operand (h : startsLiteral x) (lit : literal.Matches fuel .building ⟨x :: t, o⟩ ⟨[], o'⟩ ns) :
    operand.Matches fuel .building ⟨x :: t, o⟩ ⟨[], o'⟩ ns := by
  have noFront : prefixOp.Fails fuel .building ⟨x :: t, o⟩ :=
    fails_at [x] (refused_of_startsLiteral h prefixOp (.tail _ (.head _))) t o
  refine matches_seq (matches_none noFront) ?_
  rw [settled_of_startsLiteral h]
  exact matches_last (matches_primary h lit)

/-- A minus sign in front of a text. -/
def signNode (t : List Char) (o : Nat) : Node := .mk .negOp ⟨'-' :: t, o⟩ ⟨t, o + 1⟩ []

/-- A minus sign in front of a literal belongs to the operand. -/
theorem matches_signed (h : startsLiteral x)
    (lit : literal.Matches (fuel + 1) .building ⟨x :: t, o + 1⟩ ⟨[], o'⟩ ns) :
    operand.Matches (fuel + 1) .building ⟨'-' :: x :: t, o⟩ ⟨[], o'⟩ (signNode (x :: t) o :: ns) := by
  have alone : noSign.Stops fuel (x :: t) :=
    stops_at [x] (refused_of_startsLiteral h noSign (.tail _ (.tail _ (.head _)))) t
  have token : Rule.negOp.pattern.Passes fuel ['-'] (x :: t) := .notAhead (passes_text ['-'] (x :: t)) alone
  -- of the operators in front of an operand a cast is tried first
  have castRefused : (rule .castOp).refused ['-'] false := by decide +kernel
  have noCast : (rule .castOp).Fails (fuel + 1) .building ⟨'-' :: x :: t, o⟩ := fails_at ['-'] castRefused (x :: t) o
  have settled : Cursor.Settled ⟨'-' :: x :: t, o⟩ := Cursor.settled_of_refused ['-'] castRefused (x :: t) o
  have sign : prefixOp.Matches (fuel + 1) .building ⟨'-' :: x :: t, o⟩ ⟨x :: t, o + 1⟩
      [signNode (x :: t) o] :=
    .alt_right noCast (.alt_left (matches_token rfl rfl (token o)))
  have noOther : prefixOp.Fails (fuel + 1) .building ⟨x :: t, o + 1⟩ :=
    fails_at [x] (refused_of_startsLiteral h prefixOp (.tail _ (.head _))) t (o + 1)
  have signs : (star prefixOp).Matches (fuel + 1) .building ⟨'-' :: x :: t, o⟩ ⟨x :: t, o + 1⟩
      [signNode (x :: t) o] := by
    refine matches_once (settled _) sign ?_
    rw [settled_of_startsLiteral h]
    exact noOther
  refine matches_seq signs ?_
  rw [settled_of_startsLiteral h]
  exact matches_last (matches_primary h lit)

end Pattern

/-! ## Programs of one operand -/

namespace Syntax

variable {source : String} {fuel o : Nat} {ns : List Node}

/-- A source that is one operand is one expression statement. -/
theorem parseWithLimit_of_operand (limit : Nat) (start : List Char) (more : List Char)
    (split : source.toList = start ++ more)
    (refused : ∀ p ∈ compoundStmt :: otherStatements, p.refused start false)
    (enough : statementFuel source.toList = fuel + 2)
    (plain : (Pattern.rule .assignment).Fails (fuel + 2) .building (.ofList source.toList))
    (whole : operand.Matches fuel .building (.ofList source.toList) ⟨[], o⟩ ns) :
    parseWithLimit limit source = buildStmts limit
      [.mk .expression (.ofList source.toList) ⟨[], o⟩ [.mk .operation (.ofList source.toList) ⟨[], o⟩ ns]] := by
  -- statements and assignments start otherwise, so that only the expression is left
  have fails {p : Pattern} (h : p ∈ compoundStmt :: otherStatements) {fuel : Nat} :
      p.Fails fuel .building (.ofList source.toList) := by
    rw [Cursor.ofList, split]
    exact fails_at start (refused p h) more 0
  have settled : (Cursor.ofList source.toList).Settled := by
    rw [Cursor.ofList, split]
    exact Cursor.settled_of_refused start (refused compoundStmt (.head _)) more 0
  have alone : furtherOperand.Fails fuel .building ⟨[], o⟩ := fails_at_end (by decide +kernel) o
  have operation := matches_operation whole rfl (.rounds_nil alone _)
  have expression := matches_expression operation rfl (fails_at_end (by decide +kernel) o)
  refine parseWithLimit_of_matches (o := o) limit settled (fails (.head _)) ?_
  rw [enough]
  rw [List.append_nil] at expression
  refine matches_first otherStatements [] ?_ (.alt_right plain expression)
  intro q hq
  exact fails (.tail _ hq)

/-- The program of a source that is one operand. -/
theorem buildStmts_of_operand {c d : Cursor} {pieces : List Piece} {e : Expr} {limit : Nat} (deep : 2 < limit)
    (built : buildPieces limit 2 ns = .ok pieces) (assembled : assemble pieces = some e) :
    buildStmts limit [.mk .expression c d [.mk .operation c d ns]] = .ok [.expr e] := by
  have operation : buildExpr limit 1 (.mk .operation c d ns) = .ok e :=
    buildExpr_operation (by omega) built assembled
  have expression : buildExpr limit 0 (.mk .expression c d [.mk .operation c d ns]) = .ok e :=
    buildExpr_expression (by omega) operation
  simp only [buildStmts, buildStmt, expression]
  rfl

/-- A source that is one literal is the expression statement of its value. -/
theorem parse_of_literal {x : Char} {t : List Char} {n : Node} {value : Literal} (split : source.toList = x :: t)
    (starts : startsLiteral x) (enough : statementFuel source.toList = fuel + 2)
    (lit : literal.Matches fuel .building (.ofList source.toList) ⟨[], o⟩ [n]) (kind : n.rule ∈ literalRules)
    (denotes : literalOf n = .ok value) :
    parse source = .ok [.expr (.literal n.span value)] := by
  have isOperand : n.rule ∈ operandRules := by
    revert kind
    cases n.rule <;> decide
  have here : Cursor.ofList source.toList = ⟨x :: t, 0⟩ := by rw [split]; rfl
  have first : primary.Matches fuel .building (.ofList source.toList) ⟨[], o⟩ [n] := by
    rw [here] at lit ⊢
    exact matches_primary starts lit
  -- the literal could be the target of an assignment, but no operator for one follows
  have plain : (Pattern.rule .assignment).Fails (fuel + 2) .building (.ofList source.toList) :=
    fails_assignment first (fails_at_end (by decide +kernel) o) (Cursor.settled_nil o)
      (fails_at_end (by decide +kernel) o)
  have whole : operand.Matches fuel .building (.ofList source.toList) ⟨[], o⟩ [n] := by
    rw [here] at lit ⊢
    exact matches_operand starts lit
  have value := buildExpr_literal kind (by decide : 2 < defaultMaxDepth) denotes
  have built : buildPieces defaultMaxDepth 2 [n] = _ := buildPieces_operand isOperand value rfl
  refine (parseWithLimit_of_operand defaultMaxDepth [x] t split ?_ enough plain whole).trans
    (buildStmts_of_operand (by decide) built rfl)
  intro p hp
  refine refused_of_startsLiteral starts p (List.mem_append_left _ ?_)
  rcases List.mem_cons.1 hp with rfl | other
  · exact .head _
  · exact .tail _ (.tail _ (.tail _ other))

/-- A source that is a literal behind a minus sign is the expression statement of the value with its sign changed. -/
theorem parse_of_negated {x : Char} {t : List Char} {n : Node} {value negated : Literal}
    (split : source.toList = '-' :: x :: t) (starts : startsLiteral x)
    (enough : statementFuel source.toList = fuel + 3)
    (lit : literal.Matches (fuel + 1) .building ⟨x :: t, 1⟩ ⟨[], o⟩ [n]) (kind : n.rule ∈ literalRules)
    (denotes : literalOf n = .ok value) (sign : value.negate? = some negated) :
    parse source = .ok [.expr (.literal ⟨0, n.span.stop⟩ negated)] := by
  have isOperand : n.rule ∈ operandRules := by
    revert kind
    cases n.rule <;> decide
  have here : Cursor.ofList source.toList = ⟨'-' :: x :: t, 0⟩ := by rw [split]; rfl
  have plain : (Pattern.rule .assignment).Fails (fuel + 3) .building (.ofList source.toList) := by
    rw [here]
    exact fails_at ['-'] (by decide +kernel) (x :: t) 0
  have whole : operand.Matches (fuel + 1) .building (.ofList source.toList) ⟨[], o⟩
      [signNode (x :: t) 0, n] := by
    rw [here]
    exact matches_signed (o := 0) starts lit
  have value := buildExpr_literal kind (by decide : 2 < defaultMaxDepth) denotes
  -- the sign in front is an operator, which takes the number in when the expression is assembled
  have single : buildPieces defaultMaxDepth 2 [n] = _ := buildPieces_operand isOperand value rfl
  have built : buildPieces defaultMaxDepth 2 [signNode (x :: t) 0, n] = _ := buildPieces_neg single
  refine (parseWithLimit_of_operand defaultMaxDepth ['-'] (x :: t) split (by decide +kernel) enough plain whole).trans
    (buildStmts_of_operand (by decide) built ?_)
  show some (FrontOp.neg.apply ⟨0, 1⟩ (.literal n.span _)) = _
  simp only [FrontOp.apply, sign]
  rfl

end Syntax

end HostExpr
