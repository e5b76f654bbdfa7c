import HostExpr.Proofs.Grammar.Words
import HostExpr.Proofs.Syntax.Build
import HostExpr.Syntax.Precedence

/-!
# Formulas

Expressions of names and operators as a language of their own: the trees, the order in which operators bind as a
table, and the text of a tree, with parentheses just where the table asks for them.
-/

namespace HostExpr.Syntax

/-- Operators between two operands, by how tightly they bind: those of a row bind less than those of later rows. -/
def bindingOrder : List (List BetweenOp) :=
  [[.logic .or],
    [.logic .and],
    [.compare .eq, .compare .ne],
    [.compare .lt, .compare .le, .compare .gt, .compare .ge],
    [.arith .add, .arith .sub],
    [.arith .mul, .arith .div, .arith .rem]]

/-- The row of an operator. -/
def BetweenOp.level (op : BetweenOp) : Nat := bindingOrder.findIdx (op ∈ ·)

/-- The characters of an operator between two operands. -/
def BetweenOp.symbol : BetweenOp → List Char
  | logic .or => ['|', '|']
  | logic .and => ['&', '&']
  | compare .eq => ['=', '=']
  | compare .ne => ['!', '=']
  | compare .lt => ['<']
  | compare .le => ['<', '=']
  | compare .gt => ['>']
  | compare .ge => ['>', '=']
  | arith .add => ['+']
  | arith .sub => ['-']
  | arith .mul => ['*']
  | arith .div => ['/']
  | arith .rem => ['%']

end Syntax

/-- The character of an operator in front of an operand. -/
def UnaryOp.symbol : UnaryOp → Char
  | neg => '-'
  | not => '!'

namespace Syntax

/-- An expression of names, operators between two operands and operators in front of one. -/
inductive Formula
  | name (w : Identifier)
  | unary (op : UnaryOp) (operand : Formula)
  | binary (op : BetweenOp) (left right : Formula)

/-- A text in parentheses, where they are needed. -/
def bracketed (needed : Bool) (s : List Char) : List Char := if needed then '(' :: (s ++ [')']) else s

namespace Formula

/-- How tightly a formula is held together by its outermost operator. Operators in front of an operand bind tighter
than all between two operands. -/
def level : Formula → Nat
  | name _ => bindingOrder.length + 1
  | unary _ _ => bindingOrder.length
  | binary op _ _ => op.level

/-- The text of a formula. All operators group to the left, so that a right operand of the same level needs
parentheses and a left one does not; an operator directly in front of another one is kept apart from it. -/
def text : Formula → List Char
  | name w => w.text
  | unary op t => op.symbol :: bracketed (t.level ≤ bindingOrder.length) t.text
  | binary op l r =>
    bracketed (l.level < op.level) l.text ++ (' ' :: op.symbol ++ ' ' :: bracketed (r.level ≤ op.level) r.text)

/-- The expression is the formula, wherever its parts stand in the source. -/
inductive IsTree : Formula → Expr → Prop
  | name (w : Identifier) (span : Span) : IsTree (.name w) (.ident span (String.ofList w.text))
  | unary {op : UnaryOp} {t : Formula} {e : Expr} (span : Span) (operand : t.IsTree e) :
    IsTree (.unary op t) (.unary span op e)
  | logic {op : LogicOp} {l r : Formula} {a b : Expr} (span : Span) (left : l.IsTree a) (right : r.IsTree b) :
    IsTree (.binary (.logic op) l r) (.logic span op a b)
  | compare {op : CompareOp} {l r : Formula} {a b : Expr} (span : Span) (left : l.IsTree a) (right : r.IsTree b) :
    IsTree (.binary (.compare op) l r) (.compare span op a b)
  | arith {op : ArithOp} {l r : Formula} {a b : Expr} (span : Span) (left : l.IsTree a) (right : r.IsTree b) :
    IsTree (.binary (.arith op) l r) (.arith span op a b)

end Formula

/-! ## The table and the climber -/

/-- The table has all operators, so that what can be decided row by row holds of each. -/
@[elab_as_elim]
theorem of_bindingOrder {P : BetweenOp → Prop} (h : ∀ op ∈ bindingOrder.flatten, P op) (op : BetweenOp) : P op := by
  refine h op ?_
  rcases op with (_ | _) | (_ | _ | _ | _ | _ | _) | (_ | _ | _ | _ | _) <;> decide

/-- The power that assembling goes by is the row of the table. -/
theorem BetweenOp.power_eq (op : BetweenOp) : op.power = op.level + 1 := of_bindingOrder (by decide) op

theorem BetweenOp.level_lt (op : BetweenOp) : op.level < bindingOrder.length := of_bindingOrder (by decide) op

/-- Two trees with an operator between them are the tree of the operator. -/
theorem Formula.IsTree.binary {op : BetweenOp} {l r : Formula} {a b : Expr} (left : l.IsTree a) (right : r.IsTree b) :
    (Formula.binary op l r).IsTree (op.apply a b) := by
  cases op with
  | logic op => exact .logic _ left right
  | compare op => exact .compare _ left right
  | arith op => exact .arith _ left right

/-- The piece of an operation that an operator in front of an operand is. -/
def FrontOp.ofUnary : UnaryOp → FrontOp
  | .neg => .neg
  | .not => .not

/-- An operator in front of a tree: no formula is a number, so that a minus sign stays an operator. -/
theorem Formula.IsTree.front {op : UnaryOp} {t : Formula} {e : Expr} (operand : t.IsTree e) (span : Span) :
    (Formula.unary op t).IsTree ((FrontOp.ofUnary op).apply span e) := by
  cases op with
  | neg => cases operand <;> exact .unary _ (by constructor <;> assumption)
  | not => exact .unary _ operand

/-!
## What the pieces of an operation spell

The pieces that a formula is written as are assembled to its tree, between whatever operands wait for their right one
and whatever pieces follow: as far as the operators around it bind less than its own, they see just one operand.
-/

/-- Waiting operations are left alone by an operator that binds tighter than all of them. -/
theorem Waiting.reduce_of_lt {waiting : Waiting} {power : Nat} (h : ∀ x ∈ waiting, x.2.power < power) (e : Expr) :
    waiting.reduce power e = (waiting, e) := by
  cases waiting with
  | nil => rfl
  | cons x waiting =>
    have less := h x (.head waiting)
    exact if_neg (by omega)

/-- The pieces spell an expression of the kind, for all operators around it that bind at most as tightly as `level`:
behind the pieces such an operator finds what is waiting and the expression. -/
def Spelled (T : Expr → Prop) (level : Nat) (ps : List Piece) : Prop :=
  ∀ (waiting : Waiting) (rest : List Piece), (∀ x ∈ waiting, x.2.level < level) →
    ∃ waiting' fronts last, assembleOperand waiting [] (ps ++ rest) = assembleRest waiting' fronts last rest ∧
      ∃ e, T e ∧ ∀ power ≤ level + 1,
        Waiting.reduce power waiting' (applyFronts fronts last) = waiting.reduce power e

namespace Spelled

variable {T : Expr → Prop} {level : Nat} {ps : List Piece} {e : Expr}

theorem operand (h : T e) (level : Nat) : Spelled T level [.operand e] := by
  intro waiting rest _
  exact ⟨waiting, [], e, rfl, e, h, fun _ _ => rfl⟩

/-- An operator in front of an operand is applied before all around it. -/
theorem front {t : Formula} (h : t.IsTree e) (op : UnaryOp) (span : Span) (level : Nat) :
    Spelled (Formula.unary op t).IsTree level [.front (.ofUnary op) span, .operand e] := by
  intro waiting rest _
  exact ⟨waiting, [(.ofUnary op, span)], e, rfl, _, h.front span, fun _ _ => rfl⟩

/-- Two operands with an operator between them, if the left one binds at least as tightly as the operator and the
right one tighter. -/
theorem binary {op : BetweenOp} {l r : Formula} {low high : Nat} {ps qs : List Piece} (left : Spelled l.IsTree low ps)
    (right : Spelled r.IsTree high qs) (hl : op.level ≤ low) (hr : op.level < high) :
    Spelled (Formula.binary op l r).IsTree op.level (ps ++ .between op :: qs) := by
  intro waiting rest around
  have power := op.power_eq
  obtain ⟨waiting₁, fronts₁, last₁, first, a, treeA, seen₁⟩ :=
    left waiting (.between op :: (qs ++ rest)) fun x hx => Nat.lt_of_lt_of_le (around x hx) hl
  -- the operator meets the left operand alone
  have alone : waiting.reduce op.power a = (waiting, a) := by
    refine Waiting.reduce_of_lt (fun x hx => ?_) a
    have less := around x hx
    rw [x.2.power_eq]
    omega
  have between : assembleRest waiting₁ fronts₁ last₁ (.between op :: (qs ++ rest))
      = assembleOperand ((a, op) :: waiting) [] (qs ++ rest) := by
    rw [assembleRest, seen₁ op.power (by omega), alone]
  obtain ⟨waiting₂, fronts₂, last₂, second, b, treeB, seen₂⟩ := right ((a, op) :: waiting) rest (by
    intro x hx
    rcases List.mem_cons.1 hx with rfl | hx
    · exact hr
    · exact Nat.lt_trans (around x hx) hr)
  refine ⟨waiting₂, fronts₂, last₂, ?_, op.apply a b, treeA.binary treeB, ?_⟩
  · rw [List.append_assoc, List.cons_append, first, between, second]
  · -- an operator behind the right operand completes the left one first
    intro p hp
    rw [seen₂ p (by omega)]
    exact if_pos (by omega)

/-- The pieces of a whole operation are assembled to the tree. -/
theorem assembled (h : Spelled T level ps) : ∃ e, T e ∧ assemble ps = some e := by
  obtain ⟨waiting, fronts, last, run, e, tree, seen⟩ := h [] [] (by simp)
  refine ⟨e, tree, ?_⟩
  rw [List.append_nil] at run
  rw [assemble, run, assembleRest, seen 0 (by omega)]
  rfl

end Spelled

/-! ## Nodes -/

/-- The nodes are built to pieces that spell an expression of the kind, wherever the limit leaves enough room. -/
def SpelledBy (T : Expr → Prop) (level : Nat) (ns : List Node) : Prop :=
  ∃ enough, ∀ limit depth, enough + depth ≤ limit →
    ∃ ps, buildPieces limit depth ns = .ok ps ∧ Spelled T level ps

/-- The node is built to an expression of the kind, wherever the limit leaves enough room. -/
def BuiltBy (T : Expr → Prop) (n : Node) : Prop :=
  ∃ enough, ∀ limit depth, enough + depth ≤ limit → ∃ e, buildExpr limit depth n = .ok e ∧ T e

namespace BuiltBy

variable {T : Expr → Prop} {n : Node} {c d : Cursor}

theorem name (w : Identifier) (s : List Char) (o : Nat) :
    BuiltBy (Formula.name w).IsTree (.mk .ident ⟨w.text ++ s, o⟩ (.behind o w.text s) []) := by
  refine ⟨1, fun limit depth room => ⟨_, buildExpr_ident (by omega), ?_⟩⟩
  rw [Cursor.textTo_behind]
  exact .name w _

theorem expression {level : Nat} {ns : List Node} (h : SpelledBy T level ns) (c d c' d' : Cursor) :
    BuiltBy T (.mk .expression c d [.mk .operation c' d' ns]) := by
  obtain ⟨enough, spelled⟩ := h
  refine ⟨enough + 2, fun limit depth room => ?_⟩
  obtain ⟨ps, built, spells⟩ := spelled limit (depth + 2) (by omega)
  obtain ⟨e, tree, assembled⟩ := spells.assembled
  exact ⟨e, buildExpr_expression (by omega) (buildExpr_operation (by omega) built assembled), tree⟩

theorem paren (h : BuiltBy T n) (c d : Cursor) : BuiltBy T (.mk .paren c d [n]) := by
  obtain ⟨enough, built⟩ := h
  refine ⟨enough + 1, fun limit depth room => ?_⟩
  obtain ⟨e, inside, tree⟩ := built limit (depth + 1) (by omega)
  exact ⟨e, buildExpr_paren (by omega) inside, tree⟩

end BuiltBy

namespace SpelledBy

variable {T : Expr → Prop} {n : Node}

theorem operand (h : BuiltBy T n) (kind : n.rule ∈ operandRules) (level : Nat) : SpelledBy T level [n] := by
  obtain ⟨enough, built⟩ := h
  refine ⟨enough, fun limit depth room => ?_⟩
  obtain ⟨e, value, tree⟩ := built limit depth room
  exact ⟨_, buildPieces_operand kind value rfl, .operand tree level⟩

/-- The rule of an operator in front of an operand. -/
def frontRule : UnaryOp → Rule
  | .neg => .negOp
  | .not => .notOp

theorem front {t : Formula} (h : BuiltBy t.IsTree n) (kind : n.rule ∈ operandRules) (op : UnaryOp) (c d : Cursor)
    (level : Nat) : SpelledBy (Formula.unary op t).IsTree level [.mk (frontRule op) c d [], n] := by
  obtain ⟨enough, built⟩ := h
  refine ⟨enough, fun limit depth room => ?_⟩
  obtain ⟨e, value, tree⟩ := built limit depth room
  have last : buildPieces limit depth [n] = .ok [.operand e] := buildPieces_operand kind value rfl
  cases op with
  | neg => exact ⟨_, buildPieces_neg last, .front tree .neg _ level⟩
  | not => exact ⟨_, buildPieces_not last, .front tree .not _ level⟩

/-- The rule of an operator between two operands. -/
def betweenRule : BetweenOp → Rule
  | .logic .or => .orOp
  | .logic .and => .andOp
  | .compare .eq => .eqOp
  | .compare .ne => .neOp
  | .compare .lt => .ltOp
  | .compare .le => .leOp
  | .compare .gt => .gtOp
  | .compare .ge => .geOp
  | .arith .add => .addOp
  | .arith .sub => .subOp
  | .arith .mul => .mulOp
  | .arith .div => .divOp
  | .arith .rem => .remOp

theorem betweenOp?_betweenRule (op : BetweenOp) : betweenOp? (betweenRule op) = some op :=
  of_bindingOrder (by decide) op

theorem binary {op : BetweenOp} {l r : Formula} {low high : Nat} {ns ms : List Node}
    (left : SpelledBy l.IsTree low ns) (right : SpelledBy r.IsTree high ms) (hl : op.level ≤ low)
    (hr : op.level < high) (c d : Cursor) :
    SpelledBy (Formula.binary op l r).IsTree op.level (ns ++ .mk (betweenRule op) c d [] :: ms) := by
  obtain ⟨enough, first⟩ := left
  obtain ⟨enough', second⟩ := right
  refine ⟨enough + enough', fun limit depth room => ?_⟩
  obtain ⟨ps, builtFirst, spelledFirst⟩ := first limit depth (by omega)
  obtain ⟨qs, builtSecond, spelledSecond⟩ := second limit depth (by omega)
  exact ⟨_, buildPieces_append builtFirst (buildPieces_between (betweenOp?_betweenRule op) builtSecond),
    spelledFirst.binary spelledSecond hl hr⟩

end SpelledBy

end HostExpr.Syntax
