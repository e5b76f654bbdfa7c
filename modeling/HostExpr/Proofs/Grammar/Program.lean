import HostExpr.Proofs.Grammar.Refusal
import HostExpr.Syntax.Parse

/-!
# Matching expressions and programs

An operation is an operand and then rounds of an operator and another operand. Where the operand is followed by
nothing that could go on with it, the expression is no assignment and ends there.
-/

namespace HostExpr

open Pattern

/-- An operand with the operators in front of it and behind it. -/
def operand : Pattern := all [.star prefixOp, primary, .star postfixOp]

/-- An operator between two operands, and the second of them. -/
def furtherOperand : Pattern := .seq infixOp operand

namespace Pattern

variable {fuel : Nat} {c d e : Cursor} {ns ms : List Node}

/-- An operation is an operand and rounds of further ones. -/
theorem matches_operation (first : operand.Matches fuel .building c d ns) (settled : skipTrivia fuel d = d)
    (others : (Matcher.rounds (skipTrivia fuel) (furtherOperand.matcher fuel .building) (fuel + 1)).Gives d
      (some (e, ms))) :
    (Pattern.rule .operation).Matches (fuel + 1) .building c e [.mk .operation c e (ns ++ ms)] := by
  have row : (Pattern.seq operand (.star furtherOperand)).Matches fuel .building c e (ns ++ ms) := by
    refine matches_seq first ?_
    rw [settled]
    exact matches_star settled others
  refine matches_node rfl rfl ?_
  -- the grammar has the parts of the operand in one row with the rounds
  have flat : (Pattern.seq operand (.star furtherOperand)).matcher fuel .building
      = Rule.operation.pattern.matcher fuel .building := by
    show Matcher.seq _ (.seq _ _ (.seq _ _ _)) _ = Matcher.seq _ _ (.seq _ _ (.seq _ _ _))
    rw [Matcher.seq_assoc, Matcher.seq_assoc]
    rfl
  show (Rule.operation.pattern.matcher fuel .building).Gives c _
  rw [← flat]
  exact row

/-- An expression ends behind its operation unless a question mark stands there. -/
theorem matches_expression (whole : (Pattern.rule .operation).Matches fuel .building c d ns)
    (settled : skipTrivia fuel d = d) (last : (Pattern.rule .ternaryTail).Fails fuel .building d) :
    (Pattern.rule .expression).Matches (fuel + 1) .building c d [.mk .expression c d ns] := by
  have tail : (Pattern.opt (.rule .ternaryTail)).Matches fuel .building (skipTrivia fuel d) d [] := by
    rw [settled]
    exact .opt_of_fails last
  have row := matches_seq whole tail
  rw [List.append_nil] at row
  exact matches_node rfl rfl row

/-- What starts with an operand that no assignment operator follows is no assignment. -/
theorem fails_assignment (first : primary.Matches fuel .building c d ns)
    (alone : postfixOp.Fails fuel .building (skipTrivia fuel d))
    (settled : (skipTrivia fuel d).Settled)
    (other : (Pattern.rule .assignOp).Fails (fuel + 1) .building (skipTrivia fuel d)) :
    (Pattern.rule .assignment).Fails (fuel + 2) .building c := by
  have target : (Pattern.rule .lvalue).Matches (fuel + 1) .building c (skipTrivia fuel d) [.mk .lvalue c _ (ns ++ [])] :=
    matches_node rfl rfl (matches_seq first (matches_none alone))
  refine fails_node rfl (fails_then target ?_)
  rw [settled]
  exact fails_seq other

end Pattern

/-!
## Sources of one statement

A source that is matched as one statement, up to its end, is a program of just this statement.
-/

/-- The fuel that is left for the statements of a source. -/
def statementFuel (source : List Char) : Nat := 16 * source.length + 30

theorem nestingBound_eq (source : List Char) : nestingBound source.length = statementFuel source + 2 := by
  unfold nestingBound statementFuel
  omega

/-- The end of the source is found where it is. -/
theorem matches_endOfInput (fuel : Nat) (mode : Mode) (o : Nat) :
    (Pattern.rule .endOfInput).Matches (fuel + 1) mode ⟨[], o⟩ ⟨[], o⟩ [] := by
  have ends : Pattern.atEnd.Matches fuel mode ⟨[], o⟩ ⟨[], o⟩ [] := fun _ => rfl
  have rule := gives_rule mode .endOfInput _ ends
  simpa [Rule.leavesNode] using rule

/-- The statements of a source that is matched as one simple statement. -/
theorem matches_statements {source : List Char} {fuel o : Nat} {n : Node} (settled : (Cursor.ofList source).Settled)
    (compound : compoundStmt.Fails (fuel + 1) .building (.ofList source))
    (simple : simpleStmt.Matches (fuel + 1) .building (.ofList source) ⟨[], o⟩ [n]) :
    (Pattern.rule .statements).Matches (fuel + 2) .building (.ofList source) ⟨[], o⟩
      [.mk .statements (.ofList source) ⟨[], o⟩ [n]] := by
  have ending : (first [text [';'], ahead (text ['}']), ahead (.rule .endOfInput)]).Matches (fuel + 1) .building
      ⟨[], o⟩ ⟨[], o⟩ [] := by
    refine matches_first [text [';'], ahead (text ['}'])] [] ?_ ?_
    · intro q hq
      simp only [List.mem_cons, List.not_mem_nil, or_false] at hq
      rcases hq with rfl | rfl <;> exact fails_at_end (by decide) o
    · exact .ahead (matches_endOfInput fuel .looking o)
  -- the statement ends where the source does, and no other one follows
  refine matches_node rfl rfl (matches_once (settled _) ?_ (fails_at_end (by decide +kernel) o))
  have ended := matches_seq simple ending
  exact .alt_right compound (.alt_left ended)

/-- The parse tree of a source that is matched as one simple statement. -/
theorem Node.ofSource_of_matches {source : List Char} {o : Nat} {n : Node}
    (settled : (Cursor.ofList source).Settled)
    (compound : compoundStmt.Fails (statementFuel source) .building (.ofList source))
    (simple : simpleStmt.Matches (statementFuel source) .building (.ofList source) ⟨[], o⟩ [n]) :
    Node.ofSource source = .ok (.mk .main (.ofList source) ⟨[], o⟩
      [.mk .statements (.ofList source) ⟨[], o⟩ [n]]) := by
  have statements := matches_statements settled compound simple
  have main : (Pattern.rule .main).Matches (statementFuel source + 2) .building (.ofList source) ⟨[], o⟩
      [.mk .main (.ofList source) ⟨[], o⟩ [.mk .statements (.ofList source) ⟨[], o⟩ [n]]] := by
    refine matches_node rfl rfl ?_
    have start : nothing.Matches (statementFuel source + 1) .building (.ofList source) (.ofList source) [] := fun _ => rfl
    refine matches_seq start ?_
    rw [settled]
    exact matches_seq statements (matches_endOfInput _ _ o)
  obtain ⟨log, run⟩ := main.run .start
  unfold ofSource
  rw [nestingBound_eq, show Rule.matcher (statementFuel source + 2) .building .main (.ofList source) .start = _ from run]

/-- The statements of a source that is matched as one simple statement. -/
theorem Syntax.parseWithLimit_of_matches {source : String} {o : Nat} {n : Node} (limit : Nat)
    (settled : (Cursor.ofList source.toList).Settled)
    (compound : compoundStmt.Fails (statementFuel source.toList) .building (.ofList source.toList))
    (simple : simpleStmt.Matches (statementFuel source.toList) .building (.ofList source.toList) ⟨[], o⟩ [n]) :
    parseWithLimit limit source = buildStmts limit [n] := by
  unfold parseWithLimit
  rw [Node.ofSource_of_matches settled compound simple]

end HostExpr
