import HostExpr.Proofs.Syntax.Spans

/-!
# How deep syntax trees nest

The height of an expression counts all expressions one below the other. Its nesting does not count the operators of an
operation: however long a row of operators and operands is, its operands lie on one level, and only what stands between
brackets, in an assignment or behind a question mark lies deeper. What is assembled of the pieces of an operation has all
properties that its operands have and that operators keep: `KeptByOperators.assemble`.
-/

namespace HostExpr.Syntax

/-! ## Levels -/

mutual

/-- The levels of an expression, if the operands of an operator lie `k` levels below it and all other parts of an
expression lie one level below it. -/
def Expr.levels (k : Nat) : Expr → Nat
  | .literal _ _ | .ident _ _ => 1
  | .field _ e _ | .unary _ _ e | .step _ _ e | .cast _ _ e => e.levels k + k
  | .arith _ _ a b | .logic _ _ a b | .compare _ _ a b => max (a.levels k) (b.levels k) + k
  | .methodCall _ e _ args => max (e.levels k + k) (levelsAll k args + 1)
  | .index _ e position => max (e.levels k + k) (position.levels k + 1)
  | .newSized _ _ e => e.levels k + 1
  | .assign _ a _ b => max (a.levels k) (b.levels k) + 1
  | .conditional _ c a b => max (c.levels k) (max (a.levels k) (b.levels k)) + 1
  | .call _ _ args | .construct _ _ args | .newArray _ _ args | .inlineArray _ args | .inlineList _ args =>
    levelsAll k args + 1
  | .inlineMap _ entries => levelsEntries k entries + 1

/-- The levels of the one of several expressions that has most. -/
def levelsAll (k : Nat) : List Expr → Nat
  | [] => 0
  | e :: es => max (e.levels k) (levelsAll k es)

/-- The levels of the key or value of several entries that has most. -/
def levelsEntries (k : Nat) : List (Expr × Expr) → Nat
  | [] => 0
  | (a, b) :: es => max (max (a.levels k) (b.levels k)) (levelsEntries k es)

end

/-- The height of an expression: that of a leaf is one, and that of any other one more than that of the highest expression
right below it. -/
def Expr.height (e : Expr) : Nat := e.levels 1

/-- How deep an expression nests: its height without the operators of operations. -/
def Expr.nesting (e : Expr) : Nat := e.levels 0

theorem levelsAll_le_iff {k n : Nat} {es : List Expr} : levelsAll k es ≤ n ↔ ∀ e ∈ es, e.levels k ≤ n := by
  induction es with
  | nil => simp [levelsAll]
  | cons e es ih => rw [levelsAll, Nat.max_le, ih, List.forall_mem_cons]

theorem levelsEntries_eq (k : Nat) (entries : List (Expr × Expr)) :
    levelsEntries k entries = levelsAll k (entries.flatMap fun (a, b) => [a, b]) := by
  induction entries with
  | nil => rfl
  | cons entry entries ih =>
    obtain ⟨a, b⟩ := entry
    show max (max _ _) _ = max _ (max _ _)
    rw [ih, Nat.max_assoc]
    rfl

/-- What the height is: one more than that of the highest of the expressions right below. -/
theorem Expr.height_eq (e : Expr) : e.height = (e.children.map Expr.height).foldr max 0 + 1 := by
  have highest (es : List Expr) : (es.map Expr.height).foldr max 0 = levelsAll 1 es := by
    induction es with
    | nil => rfl
    | cons e es ih =>
      rw [List.map_cons, List.foldr_cons, ih]
      rfl
  rw [highest]
  cases e with
  | inlineMap span entries => exact congrArg (· + 1) (levelsEntries_eq 1 entries)
  | _ => simp only [height, levels, children, levelsAll] <;> omega

/-- `P` holds of the expressions that stand in a statement or in one inside of it, each taken as a whole. -/
inductive Stmt.All (P : Expr → Prop) : Stmt → Prop
  | mk {s : Stmt} (exprs : ∀ e ∈ s.exprs, P e) (inside : ∀ x ∈ s.children, x.All P) : s.All P

theorem Stmt.All.mono {P Q : Expr → Prop} (imp : ∀ e, P e → Q e) {s : Stmt} (h : s.All P) : s.All Q := by
  induction h with
  | mk exprs inside ih => exact .mk (fun e he => imp e (exprs e he)) ih

/-! ## Operations -/

/-- `P` holds of the operand that a piece of an operation is, and `Held` of the expressions that it holds if it is an
operator. -/
def Piece.All (P Held : Expr → Prop) : Piece → Prop
  | operand e => P e
  | back op _ => ∀ x ∈ op.children, Held x
  | front _ _ | between _ => True

/-- What holds of operands holds of what operators make of them, if `Held` holds of what the operators hold. -/
structure KeptByOperators (P Held : Expr → Prop) : Prop where
  front : ∀ (op : FrontOp) s e, P e → P (op.apply s e)
  back : ∀ (op : BackOp) s e, P e → (∀ x ∈ op.children, Held x) → P (op.apply s e)
  between : ∀ (op : BetweenOp) l r, P l → P r → P (op.apply l r)

namespace KeptByOperators

variable {P Held : Expr → Prop} {e : Expr} {waiting : Waiting}

theorem applyFronts (kept : KeptByOperators P Held) (fronts : List (FrontOp × Span)) (h : P e) :
    P (applyFronts fronts e) := by
  induction fronts generalizing e with
  | nil => exact h
  | cons op fronts ih => exact ih (kept.front op.1 op.2 e h)

/-- What still waits after a reduction has the property, and so has the expression that it gives. -/
theorem reduce (kept : KeptByOperators P Held) (power : Nat) (waits : ∀ x ∈ waiting, P x.1) (h : P e) :
    (∀ x ∈ (waiting.reduce power e).1, P x.1) ∧ P (waiting.reduce power e).2 := by
  induction waiting generalizing e with
  | nil => exact ⟨waits, h⟩
  | cons x waiting ih =>
    obtain ⟨first, others⟩ := List.forall_mem_cons.1 waits
    unfold Waiting.reduce
    split
    · exact ih others (kept.between x.2 x.1 e first h)
    · exact ⟨waits, h⟩

mutual

theorem assembleOperand (kept : KeptByOperators P Held) {waiting : Waiting} {fronts : List (FrontOp × Span)} :
    ∀ {pieces : List Piece}, (∀ x ∈ waiting, P x.1) → (∀ p ∈ pieces, p.All P Held) →
      assembleOperand waiting fronts pieces = some e → P e
  | .front op s :: pieces, waits, row, h => by
    rw [Syntax.assembleOperand] at h
    exact kept.assembleOperand waits (List.forall_mem_cons.1 row).2 h
  | .operand x :: pieces, waits, row, h => by
    obtain ⟨operand, row⟩ := List.forall_mem_cons.1 row
    rw [Syntax.assembleOperand] at h
    exact kept.assembleRest waits operand row h
  | [], waits, row, h => by cases h
  | .back .. :: pieces, waits, row, h => by cases h
  | .between .. :: pieces, waits, row, h => by cases h

theorem assembleRest (kept : KeptByOperators P Held) {waiting : Waiting} {fronts : List (FrontOp × Span)} {x : Expr} :
    ∀ {pieces : List Piece}, (∀ x ∈ waiting, P x.1) → P x → (∀ p ∈ pieces, p.All P Held) →
      assembleRest waiting fronts x pieces = some e → P e
  | [], waits, hx, row, h => by
    rw [Syntax.assembleRest] at h
    cases h
    exact (kept.reduce 0 waits (kept.applyFronts fronts hx)).2
  | .back op s :: pieces, waits, hx, row, h => by
    obtain ⟨held, row⟩ := List.forall_mem_cons.1 row
    rw [Syntax.assembleRest] at h
    exact kept.assembleRest waits (kept.back op s x hx held) row h
  | .between op :: pieces, waits, hx, row, h => by
    obtain ⟨others, left⟩ := kept.reduce op.power waits (kept.applyFronts fronts hx)
    rw [Syntax.assembleRest] at h
    exact kept.assembleOperand (List.forall_mem_cons.2 ⟨left, others⟩) (List.forall_mem_cons.1 row).2 h
  | .operand .. :: pieces, waits, hx, row, h => by cases h
  | .front .. :: pieces, waits, hx, row, h => by cases h

end

/-- It holds of an operation if it holds of its operands. -/
theorem assemble (kept : KeptByOperators P Held) {pieces : List Piece} (row : ∀ p ∈ pieces, p.All P Held)
    (h : assemble pieces = some e) : P e :=
  kept.assembleOperand (List.forall_mem_nil _) row h

end KeptByOperators

/-! ## Within a limit -/

/-- The expression, itself `depth` levels deep, nests no deeper than the limit. -/
def Expr.Fits (limit depth : Nat) (e : Expr) : Prop := depth + e.nesting ≤ limit

section

variable {limit depth : Nat} {es : List Expr} {e : Expr}

theorem Expr.Fits.rise (h : e.Fits limit (depth + 1)) : e.Fits limit depth := by
  unfold Fits at h ⊢
  omega

/-- The parts of an expression that encloses them. -/
theorem fits_all (deep : depth < limit) (h : ∀ x ∈ es, x.Fits limit (depth + 1)) :
    depth + (levelsAll 0 es + 1) ≤ limit := by
  have low : levelsAll 0 es ≤ limit - (depth + 1) := by
    refine levelsAll_le_iff.2 fun x hx => ?_
    have fits := h x hx
    unfold Expr.Fits Expr.nesting at fits
    omega
  omega

/-- An expression none of whose parts is the operand of an operator. -/
theorem fits_of_encloses (deep : depth < limit) (encloses : e.nesting = levelsAll 0 e.children + 1)
    (h : ∀ x ∈ e.children, x.Fits limit (depth + 1)) : e.Fits limit depth := by
  rw [Expr.Fits, encloses]
  exact fits_all deep h

/-- Operators lie as deep as their operands; what they hold lies deeper. -/
theorem fits_keptByOperators (deep : depth < limit) :
    KeptByOperators (Expr.Fits limit depth) (Expr.Fits limit (depth + 1)) where
  front op s e he := by
    have leaf : depth + 1 ≤ limit := deep
    cases op with
    | neg =>
      unfold FrontOp.apply
      dsimp only
      split
      · -- the sign of a number leaves a number
        split
        · exact leaf
        · exact leaf
      · exact he
    | not | cast => exact he
  back op s e he held := by
    unfold Expr.Fits Expr.nesting at he
    cases op with
    | field | step => exact he
    | methodCall name args =>
      have deeper : depth + (levelsAll 0 args + 1) ≤ limit := fits_all deep held
      -- the level of what the operator is applied to, or one above the arguments
      show depth + max _ _ ≤ limit
      omega
    | index position =>
      have deeper := held position (.head _)
      unfold Expr.Fits Expr.nesting at deeper
      show depth + max _ _ ≤ limit
      omega
  between op l r hl hr := by
    unfold Expr.Fits Expr.nesting at hl hr
    cases op with
    | logic | compare | arith =>
      show depth + max _ _ ≤ limit
      omega

/-- An operation fits where its operands do, even if these lie deeper. -/
theorem fits_assemble (deep : depth < limit) {pieces : List Piece}
    (row : ∀ p ∈ pieces, p.All (Expr.Fits limit (depth + 1)) (Expr.Fits limit (depth + 1)))
    (h : assemble pieces = some e) : e.Fits limit depth := by
  refine (fits_keptByOperators deep).assemble (fun p hp => ?_) h
  have fits := row p hp
  cases p with
  | operand e => exact Expr.Fits.rise fits
  | front | back | between => exact fits

end

end HostExpr.Syntax
