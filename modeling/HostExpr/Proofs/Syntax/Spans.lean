import HostExpr.Proofs.Grammar.Layout
import HostExpr.Syntax.Precedence

/-!
# Spans in syntax trees

A span is usable if the source can be cut at its ends. A tree is placed by a condition on spans if all spans in it
satisfy the condition and every expression spans those directly inside it. Assembling an operation keeps that: what
lies one behind the other is put together from left to right.
-/

namespace HostExpr

/-- The bytes of a text are those of its encoding. -/
theorem utf8ByteSize_ofList (xs : List Char) : (String.ofList xs).utf8ByteSize = byteLength xs := by
  induction xs with
  | nil => rfl
  | cons x xs ih => rw [String.ofList_cons, String.utf8ByteSize_append, String.utf8ByteSize_singleton, ih, byteLength]

namespace Span

/-- The span ends in the source, not before it starts, and the source can be cut at both ends. -/
def Usable (source : String) (s : Span) : Prop :=
  s.start ≤ s.stop ∧ s.stop ≤ source.utf8ByteSize ∧ String.Pos.Raw.IsValid source ⟨s.start⟩
    ∧ String.Pos.Raw.IsValid source ⟨s.stop⟩

/-- The span starts and ends at places between the two. -/
def Between (c d : Cursor) (s : Span) : Prop :=
  ∃ a b : Cursor, c.Reaches a ∧ a.Reaches b ∧ b.Reaches d ∧ s = ⟨a.offset, b.offset⟩

variable {c c' d d' : Cursor} {s t : Span}

theorem Within.trans {u : Span} (h : s.Within t) (h' : t.Within u) : s.Within u :=
  ⟨Nat.le_trans h'.1 h.1, Nat.le_trans h.2 h'.2⟩

namespace Between

theorem reaches (h : s.Between c d) : c.Reaches d := by
  obtain ⟨a, b, before, inside, behind, -⟩ := h
  exact (before.trans inside).trans behind

theorem of_reaches (h : c.Reaches d) : Between c d ⟨c.offset, d.offset⟩ := ⟨c, d, .refl c, h, .refl d, rfl⟩

theorem widen (h : s.Between c d) (before : c'.Reaches c) (behind : d.Reaches d') : s.Between c' d' := by
  obtain ⟨a, b, first, inside, last, same⟩ := h
  exact ⟨a, b, before.trans first, inside, last.trans behind, same⟩

/-- A span between two places lies in the one from the first to the second. -/
theorem within (h : s.Between c d) : s.Within ⟨c.offset, d.offset⟩ := by
  obtain ⟨a, b, before, -, behind, rfl⟩ := h
  exact ⟨before.offset_le, behind.offset_le⟩

/-- From a span to one behind it. -/
theorem join (h : s.Between c d) (between : d.Reaches c') (h' : t.Between c' d') : (s.join t).Between c d' := by
  obtain ⟨a, b, before, inside, behind, rfl⟩ := h
  obtain ⟨a', b', before', inside', behind', rfl⟩ := h'
  exact ⟨a, b', before, ((inside.trans behind).trans between).trans (before'.trans inside'), behind', rfl⟩

/-- Two spans one behind the other lie in the one they are joined to. -/
theorem within_join (h : s.Between c d) (between : d.Reaches c') (h' : t.Between c' d') :
    s.Within (s.join t) ∧ t.Within (s.join t) := by
  obtain ⟨a, b, before, inside, behind, rfl⟩ := h
  obtain ⟨a', b', before', inside', behind', rfl⟩ := h'
  have apart : b.Reaches a' := (behind.trans between).trans before'
  exact ⟨⟨Nat.le_refl _, (apart.trans inside').offset_le⟩, ⟨(inside.trans apart).offset_le, Nat.le_refl _⟩⟩

/-- The source can be cut at every place in it. -/
theorem usable {source : String} (h : s.Between (.ofList source.toList) d) : s.Usable source := by
  have cut {a : Cursor} (ha : (Cursor.ofList source.toList).Reaches a) :
      String.Pos.Raw.IsValid source ⟨a.offset⟩ := by
    obtain ⟨xs, text, offset⟩ := ha
    refine String.Pos.Raw.isValid_iff_exists_append.2 ⟨String.ofList xs, String.ofList a.rest, ?_, ?_⟩
    · rw [← String.ofList_append, ← text, Cursor.ofList, String.ofList_toList]
    · have size : a.offset = (String.ofList xs).utf8ByteSize := by
        rw [utf8ByteSize_ofList, offset, Cursor.ofList, Nat.zero_add]
      rw [size]
      rfl
  obtain ⟨a, b, before, inside, behind, rfl⟩ := h
  have last := cut (before.trans inside)
  exact ⟨inside.offset_le, last.le_rawEndPos, cut before, last⟩

end Between

end Span

namespace Syntax

/-! ## Placed trees -/

/-- `P` holds of all spans in a type. -/
inductive TypeExpr.Placed (P : Span → Prop) : TypeExpr → Prop
  | mk {t : TypeExpr} (span : P t.span) (args : ∀ a ∈ t.args, a.Placed P) : t.Placed P

/-- The expressions right below an expression. -/
def Expr.children : Expr → List Expr
  | literal .. | ident .. => []
  | field _ e _ | unary _ _ e | step _ _ e | cast _ _ e | newSized _ _ e => [e]
  | methodCall _ e _ args => e :: args
  | index _ a b | assign _ a _ b | arith _ _ a b | logic _ _ a b | compare _ _ a b => [a, b]
  | conditional _ c a b => [c, a, b]
  | call _ _ args | construct _ _ args | newArray _ _ args | inlineArray _ args | inlineList _ args => args
  | inlineMap _ entries => entries.flatMap fun (k, v) => [k, v]

/-- The type that is written in an expression itself. -/
def Expr.type? : Expr → Option TypeExpr
  | cast _ t _ | construct _ t _ | newArray _ t _ | newSized _ t _ => some t
  | _ => none

/-- `P` holds of all spans in an expression, and each expression in it spans those right below it. -/
inductive Expr.Placed (P : Span → Prop) : Expr → Prop
  | mk {e : Expr} (span : P e.span) (type : ∀ t ∈ e.type?, t.Placed P)
    (nested : ∀ x ∈ e.children, x.span.Within e.span) (inside : ∀ x ∈ e.children, x.Placed P) : e.Placed P

/-- The spans that a statement itself records: those of the names it declares, or of a whole import. -/
def Stmt.spans : Stmt → List Span
  | declare _ ds => ds.map Declarator.span
  | forEach _ _ span _ _ | importPath _ _ span => [span]
  | _ => []

/-- The type that is written in a statement itself. -/
def Stmt.type? : Stmt → Option TypeExpr
  | declare t _ | forEach t _ _ _ _ => t
  | _ => none

/-- The expressions right below a statement. -/
def Stmt.exprs : Stmt → List Expr
  | expr e => [e]
  | declare _ ds => ds.filterMap Declarator.init
  | branch c _ _ | whileLoop c _ | forEach _ _ _ c _ => [c]
  | forLoop _ c update _ => c.toList ++ update
  | returns value => value.toList
  | block _ | importPath _ _ _ => []

/-- The statements right below a statement. -/
def Stmt.children : Stmt → List Stmt
  | branch _ thenBody elseBody => thenBody ++ elseBody.getD []
  | forLoop init _ _ body => init.toList ++ body
  | whileLoop _ body | forEach _ _ _ _ body | block body => body
  | expr _ | declare _ _ | returns _ | importPath _ _ _ => []

/-- `P` holds of all spans in a statement, and each expression in it spans those right below it. -/
inductive Stmt.Placed (P : Span → Prop) : Stmt → Prop
  | mk {s : Stmt} (spans : ∀ x ∈ s.spans, P x) (type : ∀ t ∈ s.type?, t.Placed P)
    (exprs : ∀ e ∈ s.exprs, e.Placed P) (inside : ∀ x ∈ s.children, x.Placed P) : s.Placed P

variable {P Q : Span → Prop}

namespace TypeExpr.Placed

variable {t : TypeExpr}

theorem span (h : t.Placed P) : P t.span := by
  cases h with
  | mk span args => exact span

theorem args (h : t.Placed P) : ∀ a ∈ t.args, a.Placed P := by
  cases h with
  | mk span args => exact args

theorem mono (imp : ∀ s, P s → Q s) (h : t.Placed P) : t.Placed Q := by
  induction h with
  | mk span args ih => exact .mk (imp _ span) ih

end TypeExpr.Placed

namespace Expr.Placed

variable {e : Expr}

theorem span (h : e.Placed P) : P e.span := by
  cases h with
  | mk span type nested inside => exact span

theorem type (h : e.Placed P) : ∀ t ∈ e.type?, t.Placed P := by
  cases h with
  | mk span type nested inside => exact type

theorem inside (h : e.Placed P) : ∀ x ∈ e.children, x.Placed P := by
  cases h with
  | mk span type nested inside => exact inside

theorem mono (imp : ∀ s, P s → Q s) (h : e.Placed P) : e.Placed Q := by
  induction h with
  | mk span type nested inside ih => exact .mk (imp _ span) (fun t ht => (type t ht).mono imp) nested ih

/-- An expression between two places lies between any further apart. -/
theorem widen {c c' d d' : Cursor} (h : e.Placed (Span.Between c d)) (before : c'.Reaches c) (behind : d.Reaches d') :
    e.Placed (Span.Between c' d') := h.mono fun _ hs => hs.widen before behind

end Expr.Placed

/-- A statement that records no span and no type itself. -/
theorem Stmt.placed_of_parts {s : Stmt} (spans : s.spans = []) (type : s.type? = none)
    (exprs : ∀ e ∈ s.exprs, e.Placed P) (inside : ∀ x ∈ s.children, x.Placed P) : s.Placed P :=
  .mk (by simp [spans]) (by simp [type]) exprs inside

/-- An import records the span of all of it. -/
theorem Stmt.placed_import {path : String} {everything : Bool} {span : Span} (h : P span) :
    (Stmt.importPath path everything span).Placed P :=
  .mk (List.forall_mem_singleton.2 h) (fun t ht => by cases ht) (List.forall_mem_nil _) (List.forall_mem_nil _)

theorem Stmt.Placed.mono (imp : ∀ s, P s → Q s) {s : Stmt} (h : s.Placed P) : s.Placed Q := by
  induction h with
  | mk spans type exprs inside ih =>
    exact .mk (fun x hx => imp x (spans x hx)) (fun t ht => (type t ht).mono imp) (fun e he => (exprs e he).mono imp) ih

/-! ## Operations -/

variable {c d a b : Cursor} {s : Span} {e l r : Expr}

/-- The type that an operator in front of an operand holds. -/
def FrontOp.type? : FrontOp → Option TypeExpr
  | cast t => some t
  | neg | not => none

/-- The expressions that an operator behind an operand holds. -/
def BackOp.children : BackOp → List Expr
  | methodCall _ args => args
  | index position => [position]
  | field _ | step _ => []

/-- The sign of a number or the operator joins the operand. -/
theorem placed_front {op : FrontOp} (hs : s.Between c a) (type : ∀ t ∈ op.type?, t.Placed (Span.Between c a))
    (he : e.Placed (Span.Between a d)) : (op.apply s e).Placed (Span.Between c d) := by
  have joined : (s.join e.span).Between c d := hs.join (.refl a) he.span
  have inJoined : e.span.Within (s.join e.span) := (hs.within_join (.refl a) he.span).2
  have operand : ∀ x ∈ [e], x.Placed (Span.Between c d) := by simpa using he.widen hs.reaches (.refl d)
  have nested : ∀ x ∈ [e], x.span.Within (s.join e.span) := by simpa using inJoined
  have negated : (Expr.unary (s.join e.span) .neg e).Placed (Span.Between c d) :=
    .mk joined (fun t ht => by cases ht) nested operand
  cases op with
  | neg =>
    unfold FrontOp.apply
    dsimp only
    split
    · -- a number takes its sign in
      split
      · exact .mk joined (fun t ht => by cases ht) (List.forall_mem_nil _) (List.forall_mem_nil _)
      · exact negated
    · exact negated
  | not => exact .mk joined (fun t ht => by cases ht) nested operand
  | cast type' =>
    refine .mk joined (fun t ht => ?_) nested operand
    exact (type t ht).mono fun _ h => h.widen (.refl c) he.span.reaches

theorem placed_back {op : BackOp} (he : e.Placed (Span.Between c a)) (hs : s.Between a d)
    (held : ∀ x ∈ op.children, x.span.Within s ∧ x.Placed (Span.Between a d)) :
    (op.apply s e).Placed (Span.Between c d) := by
  have joined : (e.span.join s).Between c d := he.span.join (.refl a) hs
  obtain ⟨inJoined, opJoined⟩ := he.span.within_join (.refl a) hs
  have nested : ∀ x ∈ e :: op.children, x.span.Within (e.span.join s) :=
    List.forall_mem_cons.2 ⟨inJoined, fun x hx => (held x hx).1.trans opJoined⟩
  have inside : ∀ x ∈ e :: op.children, x.Placed (Span.Between c d) :=
    List.forall_mem_cons.2
      ⟨he.widen (.refl c) hs.reaches, fun x hx => (held x hx).2.widen he.span.reaches (.refl d)⟩
  cases op with
  | methodCall | field | index | step => exact .mk joined (fun t ht => by cases ht) nested inside

theorem placed_between {op : BetweenOp} (hl : l.Placed (Span.Between c a)) (hr : r.Placed (Span.Between a d)) :
    (op.apply l r).Placed (Span.Between c d) := by
  have joined : (l.span.join r.span).Between c d := hl.span.join (.refl a) hr.span
  obtain ⟨inLeft, inRight⟩ := hl.span.within_join (.refl a) hr.span
  have nested : ∀ x ∈ [l, r], x.span.Within (l.span.join r.span) := by simpa using ⟨inLeft, inRight⟩
  have inside : ∀ x ∈ [l, r], x.Placed (Span.Between c d) := by
    simpa using ⟨hl.widen (.refl c) hr.span.reaches, hr.widen hl.span.reaches (.refl d)⟩
  cases op with
  | logic | compare | arith => exact .mk joined (fun t ht => by cases ht) nested inside

/-- The piece lies between two places. -/
def Piece.Lies (c d : Cursor) : Piece → Prop
  | operand e => e.Placed (Span.Between c d)
  | front op s => s.Between c d ∧ ∀ t ∈ op.type?, t.Placed (Span.Between c d)
  | back op s => s.Between c d ∧ ∀ x ∈ op.children, x.span.Within s ∧ x.Placed (Span.Between c d)
  | between _ => c.Reaches d

/-- The pieces lie one behind the other. -/
inductive Piece.Row : Cursor → List Piece → Cursor → Prop
  | nil {c d : Cursor} (reaches : c.Reaches d) : Row c [] d
  | cons {c a d : Cursor} {p : Piece} {ps : List Piece} (first : p.Lies c a) (rest : Row a ps d) : Row c (p :: ps) d

/-- Operators in front of an operand lie one behind the other, the innermost one last. -/
inductive FrontOp.Row (c : Cursor) : List (FrontOp × Span) → Cursor → Prop
  | nil {d : Cursor} (reaches : c.Reaches d) : Row c [] d
  | cons {a d : Cursor} {op : FrontOp} {s : Span} {ops : List (FrontOp × Span)} (before : Row c ops a)
    (span : s.Between a d) (type : ∀ t ∈ op.type?, t.Placed (Span.Between a d)) : Row c ((op, s) :: ops) d

/-- Operands that wait for their right one lie one behind the other, the innermost one last. -/
inductive Waiting.Row (c : Cursor) : Waiting → Cursor → Prop
  | nil {d : Cursor} (reaches : c.Reaches d) : Row c [] d
  | cons {a d : Cursor} {l : Expr} {op : BetweenOp} {waiting : Waiting} (before : Row c waiting a)
    (here : l.Placed (Span.Between a d)) : Row c ((l, op) :: waiting) d

theorem Waiting.Row.reaches {waiting : Waiting} (h : Waiting.Row c waiting d) : c.Reaches d := by
  induction h with
  | nil reaches => exact reaches
  | cons before here ih => exact ih.trans here.span.reaches

theorem placed_applyFronts {fronts : List (FrontOp × Span)} (h : FrontOp.Row c fronts a)
    (he : e.Placed (Span.Between a d)) : (applyFronts fronts e).Placed (Span.Between c d) := by
  induction h generalizing e with
  | nil reaches => exact he.widen reaches (.refl d)
  | cons before span type ih => exact ih (placed_front span type he)

/-- What still waits after a reduction lies in front of the expression it gives. -/
theorem row_reduce {waiting : Waiting} (power : Nat) (h : Waiting.Row c waiting a)
    (he : e.Placed (Span.Between a d)) :
    ∃ b, Waiting.Row c (Waiting.reduce power waiting e).1 b
      ∧ (Waiting.reduce power waiting e).2.Placed (Span.Between b d) := by
  induction h generalizing e with
  | nil reaches => exact ⟨_, .nil reaches, he⟩
  | cons before here ih =>
    unfold Waiting.reduce
    split
    · -- the operand that has waited comes in front of the expression, and both become one
      exact ih (placed_between here he)
    · exact ⟨_, .cons before here, he⟩

mutual

theorem placed_assembleOperand {waiting : Waiting} {fronts : List (FrontOp × Span)} :
    ∀ {a b : Cursor} {pieces : List Piece}, Waiting.Row c waiting a → FrontOp.Row a fronts b → Piece.Row b pieces d →
      assembleOperand waiting fronts pieces = some e → e.Placed (Span.Between c d)
  | a, b, .front op s :: pieces, hw, hf, .cons ⟨span, type⟩ rest, h => by
    rw [assembleOperand] at h
    exact placed_assembleOperand hw (.cons hf span type) rest h
  | a, b, .operand x :: pieces, hw, hf, .cons first rest, h => by
    rw [assembleOperand] at h
    exact placed_assembleRest hw hf first rest h
  | a, b, [], hw, hf, _, h => by cases h
  | a, b, .back .. :: pieces, hw, hf, _, h => by cases h
  | a, b, .between .. :: pieces, hw, hf, _, h => by cases h

theorem placed_assembleRest {waiting : Waiting} {fronts : List (FrontOp × Span)} :
    ∀ {a b m : Cursor} {x : Expr} {pieces : List Piece}, Waiting.Row c waiting a → FrontOp.Row a fronts b →
      x.Placed (Span.Between b m) → Piece.Row m pieces d → assembleRest waiting fronts x pieces = some e →
      e.Placed (Span.Between c d)
  | a, b, m, x, [], hw, hf, hx, .nil reaches, h => by
    rw [assembleRest] at h
    cases h
    obtain ⟨first, before, here⟩ := row_reduce 0 hw (placed_applyFronts hf hx)
    exact here.widen before.reaches reaches
  | a, b, m, x, .back op s :: pieces, hw, hf, hx, .cons ⟨span, held⟩ rest, h => by
    rw [assembleRest] at h
    exact placed_assembleRest hw hf (placed_back hx span held) rest h
  | a, b, m, x, .between op :: pieces, hw, hf, hx, .cons reaches rest, h => by
    rw [assembleRest] at h
    obtain ⟨first, before, here⟩ := row_reduce op.power hw (placed_applyFronts hf hx)
    exact placed_assembleOperand (.cons before here) (.nil reaches) rest h
  | a, b, m, x, .operand .. :: pieces, hw, hf, hx, _, h => by cases h
  | a, b, m, x, .front .. :: pieces, hw, hf, hx, _, h => by cases h

end

/-- An operation lies where its pieces do. -/
theorem placed_assemble {pieces : List Piece} (h : Piece.Row c pieces d) (assembled : assemble pieces = some e) :
    e.Placed (Span.Between c d) :=
  placed_assembleOperand (.nil (.refl c)) (.nil (.refl c)) h assembled

end Syntax

end HostExpr
