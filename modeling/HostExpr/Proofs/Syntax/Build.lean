import HostExpr.Syntax.Build.Stmt

/-!
# Building operations

What is built of the nodes that operations are made of, one lemma for each kind of node. A node is deep enough
inside the limit if its expression and all those inside it are.
-/

namespace HostExpr.Syntax

variable {limit depth : Nat} {c d : Cursor} {n : Node} {ns : List Node} {e : Expr} {pieces : List Piece}

/-! ## Expressions -/

/-- An expression without a question mark is its operation. -/
theorem buildExpr_expression (deep : depth < limit) (whole : buildExpr limit (depth + 1) n = .ok e) :
    buildExpr limit depth (.mk .expression c d [n]) = .ok e := by
  rw [buildExpr, if_neg (by omega)]
  exact whole

/-- An operation is assembled of its pieces. -/
theorem buildExpr_operation (deep : depth < limit) (parts : buildPieces limit (depth + 1) ns = .ok pieces)
    (assembled : assemble pieces = some e) : buildExpr limit depth (.mk .operation c d ns) = .ok e := by
  rw [buildExpr, if_neg (by omega)]
  show (buildPieces limit (depth + 1) ns).bind (fun pieces => required _ (assemble pieces)) = .ok e
  rw [parts]
  show required _ (assemble pieces) = .ok e
  rw [assembled]
  rfl

/-- Parentheses leave no trace. -/
theorem buildExpr_paren (deep : depth < limit) (inside : buildExpr limit (depth + 1) n = .ok e) :
    buildExpr limit depth (.mk .paren c d [n]) = .ok e := by
  rw [buildExpr, if_neg (by omega)]
  exact inside

theorem buildExpr_ident (deep : depth < limit) :
    buildExpr limit depth (.mk .ident c d ns) = .ok (.ident ⟨c.offset, d.offset⟩ (String.ofList (c.textTo d))) := by
  rw [buildExpr, if_neg (by omega)]
  rfl

/-- The nodes that are literals. -/
def literalRules : List Rule := [.double, .long, .integer, .string, .boolean, .null]

theorem buildExpr_literal (h : n.rule ∈ literalRules) (deep : depth < limit) {value : Literal}
    (denotes : literalOf n = .ok value) : buildExpr limit depth n = .ok (.literal n.span value) := by
  obtain ⟨r, c, d, ns⟩ := n
  simp only [Node.rule, literalRules, List.mem_cons, List.not_mem_nil, or_false] at h
  rcases h with rfl | rfl | rfl | rfl | rfl | rfl <;>
    · simp only [buildExpr, if_neg (Nat.not_le.2 deep), denotes]
      rfl

/-! ## Pieces -/

/-- The piece that one node of an operation is. -/
def buildPiece (limit depth : Nat) (n : Node) : Build Piece :=
  if n.rule ∈ operandRules then Piece.operand <$> buildExpr limit depth n
  else match n with
  | .mk .negOp _ _ _ => .ok (.front .neg n.span)
  | .mk .notOp _ _ _ => .ok (.front .not n.span)
  | .mk .castOp _ _ [type] => (fun type => .front (.cast type) n.span) <$> required n (typeExpr? type)
  | .mk .methodCall _ _ (name :: args) =>
    (fun args => .back (.methodCall (nodeText name) args) n.span) <$> buildExprs limit depth args
  | .mk .field _ _ [name] => .ok (.back (.field (nodeText name)) n.span)
  | .mk .index _ _ [position] => (fun position => .back (.index position) n.span) <$> buildExpr limit depth position
  | .mk .incr _ _ _ => .ok (.back (.step .incr) n.span)
  | .mk .decr _ _ _ => .ok (.back (.step .decr) n.span)
  | _ =>
    match betweenOp? n.rule with
    | some op => .ok (.between op)
    | none => failAt n .malformedTree

theorem buildPieces_cons (limit depth : Nat) (n : Node) (ns : List Node) :
    buildPieces limit depth (n :: ns) = (buildPiece limit depth n).bind fun piece =>
      (buildPieces limit depth ns).bind fun pieces => .ok (piece :: pieces) := by
  obtain ⟨r, c, d, inner⟩ := n
  rw [buildPieces.eq_def]
  unfold buildPiece
  by_cases operand : (Node.mk r c d inner).rule ∈ operandRules
  · rw [if_pos operand]
    dsimp only
    rw [if_pos operand]
    cases buildExpr limit depth (.mk r c d inner) <;> rfl
  · rw [if_neg operand]
    dsimp only
    rw [if_neg operand]
    cases r
    case castOp =>
      rcases inner with _ | ⟨type, _ | ⟨_, _⟩⟩
      · rfl
      · dsimp only
        generalize required _ (typeExpr? type) = read
        cases read <;> rfl
      · rfl
    case methodCall =>
      rcases inner with _ | ⟨name, args⟩
      · rfl
      · dsimp only
        cases buildExprs limit depth args <;> rfl
    case field => rcases inner with _ | ⟨name, _ | ⟨_, _⟩⟩ <;> rfl
    case index =>
      rcases inner with _ | ⟨position, _ | ⟨_, _⟩⟩
      · rfl
      · dsimp only
        cases buildExpr limit depth position <;> rfl
      · rfl
    -- the rule of any other node tells what piece it is
    all_goals rfl

/-- Two rows of nodes are built one after the other. -/
theorem buildPieces_append {ms : List Node} {qs : List Piece} (first : buildPieces limit depth ns = .ok pieces)
    (second : buildPieces limit depth ms = .ok qs) : buildPieces limit depth (ns ++ ms) = .ok (pieces ++ qs) := by
  induction ns generalizing pieces with
  | nil =>
    cases first
    exact second
  | cons n ns ih =>
    rw [buildPieces_cons] at first
    rw [List.cons_append, buildPieces_cons]
    cases here : buildPiece limit depth n with
    | error e =>
      rw [here] at first
      cases first
    | ok piece =>
      rw [here] at first
      cases others : buildPieces limit depth ns with
      | error e =>
        rw [others] at first
        cases first
      | ok rest =>
        rw [others] at first
        cases first
        rw [ih others]
        rfl

theorem buildPieces_operand (h : n.rule ∈ operandRules) (here : buildExpr limit depth n = .ok e)
    (others : buildPieces limit depth ns = .ok pieces) :
    buildPieces limit depth (n :: ns) = .ok (.operand e :: pieces) := by
  rw [buildPieces]
  · rw [if_pos h, here, others]
    rfl
  -- no operand is the node of an operator
  all_goals
    intros
    rename_i same
    rw [same] at h
    exact absurd h (by simp [operandRules, Node.rule])

theorem buildPieces_neg (others : buildPieces limit depth ns = .ok pieces) :
    buildPieces limit depth (.mk .negOp c d [] :: ns) = .ok (.front .neg ⟨c.offset, d.offset⟩ :: pieces) := by
  rw [buildPieces_cons, others]
  rfl

theorem buildPieces_not (others : buildPieces limit depth ns = .ok pieces) :
    buildPieces limit depth (.mk .notOp c d [] :: ns) = .ok (.front .not ⟨c.offset, d.offset⟩ :: pieces) := by
  rw [buildPieces_cons, others]
  rfl

theorem buildPieces_between {r : Rule} {op : BetweenOp} (h : betweenOp? r = some op)
    (others : buildPieces limit depth ns = .ok pieces) :
    buildPieces limit depth (.mk r c d [] :: ns) = .ok (.between op :: pieces) := by
  rw [buildPieces_cons, others]
  cases r <;> cases h <;> rfl

end HostExpr.Syntax
