import HostExpr.Proofs.Syntax.Spans
import HostExpr.Proofs.Typing.Height
import HostExpr.Proofs.Typing.Steps
import HostExpr.Typing.Program

/-!
# Spans in typed trees

An analysis makes no spans of its own but the empty one at the start, for what stands for no text, and the one of the
whole source. Every other span in a typed tree or in an error is one of the syntax tree. So whatever holds of the spans
there holds of those of the analysis.
-/

namespace HostExpr

/-! ## Placed trees -/

namespace Typed

/-- The span of a node. -/
def TreeNode.span : TreeNode → Span
  | expr e => e.span
  | stmt s => s.info.span

/-- `P` holds of all spans in a typed tree. -/
inductive TreeNode.Placed (P : Span → Prop) : TreeNode → Prop
  | mk {n : TreeNode} (span : P n.span) (inside : ∀ m ∈ n.children, m.Placed P) : n.Placed P

/-- `P` holds of all spans in an expression. -/
abbrev Expr.Placed (P : Span → Prop) (e : Expr) : Prop := (TreeNode.expr e).Placed P

/-- `P` holds of all spans in a statement. -/
abbrev Stmt.Placed (P : Span → Prop) (s : Stmt) : Prop := (TreeNode.stmt s).Placed P

variable {P : Span → Prop}

theorem TreeNode.Placed.span {n : TreeNode} (h : n.Placed P) : P n.span := by
  cases h with
  | mk span inside => exact span

theorem TreeNode.Placed.inside {n : TreeNode} (h : n.Placed P) : ∀ m ∈ n.children, m.Placed P := by
  cases h with
  | mk span inside => exact inside

/-- Nodes for expressions of which all spans are as they should be. -/
theorem placed_map {es : List Expr} (h : ∀ e ∈ es, e.Placed P) : ∀ m ∈ es.map TreeNode.expr, m.Placed P := by
  intro m hm
  obtain ⟨e, he, rfl⟩ := List.mem_map.1 hm
  exact h e he

theorem placed_map_stmt {ss : List Stmt} (h : ∀ s ∈ ss, s.Placed P) : ∀ m ∈ ss.map TreeNode.stmt, m.Placed P := by
  intro m hm
  obtain ⟨s, hs, rfl⟩ := List.mem_map.1 hm
  exact h s hs

/-- An expression is placed by its own span and those right below it. -/
theorem Expr.placed {e : Expr} (span : P e.span) (inside : ∀ x ∈ e.children, x.Placed P) : e.Placed P :=
  .mk span (placed_map inside)

theorem Expr.placed_span {e : Expr} (h : e.Placed P) : P e.span := TreeNode.Placed.span h

/-- A statement that is an expression is one node with it. -/
theorem Stmt.placed_expr {e : Expr} (h : e.Placed P) : (Stmt.expr e).Placed P :=
  .mk (TreeNode.Placed.span (n := .expr e) h) (TreeNode.Placed.inside (n := .expr e) h)

end Typed

/-! ## What comes of a step -/

namespace Analysis

variable {α β : Type} {P : Span → Prop} {Q : α → Prop} {R : β → Prop}

/-- What comes of the step, in whatever state, satisfies `Q`, and if it fails, `P` holds of the span of the error. -/
def Places (P : Span → Prop) (Q : α → Prop) (step : Analysis α) : Prop :=
  ∀ a, match (step a).1 with
    | .ok r => Q r
    | .error e => P e.span

/-- If the step fails, `P` holds of the span of the error. -/
abbrev Points (P : Span → Prop) (step : Analysis α) : Prop := Places P (fun _ => True) step

namespace Places

theorem pure {r : α} (h : Q r) : Places P Q (Pure.pure r) := fun _ => h

theorem fail (cause : CompileCause) {span : Span} (h : P span) : Places P Q (Analysis.fail cause span) := fun _ => h

/-- One step after the other. -/
theorem bind {x : Analysis α} {f : α → Analysis β} (hx : Places P Q x) (hf : ∀ r, Q r → Places P R (f r)) :
    Places P R (x >>= f) := by
  intro a
  have first := hx a
  rw [bind_eq_bindCont]
  generalize x a = outcome at first ⊢
  obtain ⟨e | r, b⟩ := outcome
  · exact first
  · exact hf r first b

/-- A step of which only the errors matter. -/
theorem andThen {x : Analysis α} {f : α → Analysis β} (hx : Points P x) (hf : ∀ r, Places P R (f r)) :
    Places P R (x >>= f) := hx.bind fun r _ => hf r

theorem map {x : Analysis α} {f : α → β} (hx : Places P Q x) (hf : ∀ r, Q r → R (f r)) : Places P R (f <$> x) :=
  hx.bind fun r hr => .pure (hf r hr)

theorem ite {c : Prop} [Decidable c] {x y : Analysis α} (hx : Places P Q x) (hy : Places P Q y) :
    Places P Q (if c then x else y) := by
  split
  · exact hx
  · exact hy

theorem inBlock {x : Analysis α} (hx : Places P Q x) : Places P Q (Analysis.inBlock x) := by
  intro a
  rw [inBlock_apply]
  exact hx a.opened

end Places

/-! Steps that never fail -/

theorem points_env : Points P Analysis.env := fun _ => trivial

theorem points_get : Points P (get : Analysis AnalysisState) := fun _ => trivial

theorem points_modifyEnv (f : Environment → Environment) : Points P (modifyEnv f) := fun _ => trivial

theorem points_remember (t : Ty) : Points P (remember t) := fun _ => trivial

theorem points_newSite : Points P newSite := fun _ => trivial

theorem points_strong : Points P strong := fun _ => trivial

theorem points_rejectsDynamic : Points P rejectsDynamic := fun _ => trivial

theorem points_declareInBlock (name : String) (type : Ty) : Points P (declareInBlock name type) := fun _ => trivial

end Analysis

namespace Context

open Typed Analysis

variable {ctx : Context} {P : Span → Prop} {span : Span}

/-! ## Types -/

theorem points_resolveType {t : Syntax.TypeExpr} (h : t.Placed P) : Points P (ctx.resolveType t) := by
  induction h with
  | @mk t here args ih =>
    obtain ⟨path, ts, dims, span⟩ := t
    have row : Points P (ctx.resolveTypes ts) := by
      replace ih : ∀ t ∈ ts, Points P (ctx.resolveType t) := ih
      clear here args
      -- one argument after the other, each by the induction on the type
      induction ts with
      | nil =>
        unfold resolveTypes
        exact .pure trivial
      | cons t ts rest =>
        unfold resolveTypes
        refine .andThen (ih t (.head ts)) fun _ => ?_
        exact .andThen (rest fun t ht => ih t (.tail _ ht)) fun _ => .pure trivial
    unfold resolveType
    refine .andThen points_env fun env => ?_
    split
    · exact .fail _ here
    · exact .andThen row fun _ => .pure trivial

theorem points_resolveType? {t : Option Syntax.TypeExpr} (h : ∀ t' ∈ t, t'.Placed P) :
    Points P (ctx.resolveType? t) := by
  cases t with
  | none => exact .pure trivial
  | some t => exact .map (points_resolveType (h t rfl)) fun _ _ => trivial

theorem points_checkCoercion (source target : Ty) (h : P span) : Points P (ctx.checkCoercion source target span) := by
  unfold checkCoercion
  exact .andThen points_strong fun _ => .ite (.fail _ h) (.pure trivial)

/-! ## Names -/

theorem places_inputNode (name : String) (type : Ty) (h : P span) :
    Places P (Expr.Placed P) (inputNode name type span) := by
  unfold inputNode
  exact .andThen points_newSite fun site => .pure (Expr.placed h (List.forall_mem_nil _))

theorem placed_thisNode (env : Environment) (h : P span) : (thisNode env span).Placed P :=
  Expr.placed h (List.forall_mem_nil _)

theorem placed_classNode (c : ClassRef) (h : P span) : (classNode c span).Placed P :=
  Expr.placed h (List.forall_mem_nil _)

theorem placed_declared (type : Ty) (name : String) (h : P span) : (Expr.declared ⟨type, span⟩ name).Placed P :=
  Expr.placed h (List.forall_mem_nil _)

theorem places_unknownName (name : String) (h : P span) : Places P (Expr.Placed P) (unknownName name span) := by
  unfold unknownName
  refine .andThen points_env fun env => ?_
  split
  · exact .fail _ h
  · split
    · exact .andThen (points_modifyEnv _) fun _ => .pure (placed_declared _ name h)
    · exact .andThen (points_modifyEnv _) fun _ => places_inputNode name _ h

theorem places_freeName (name : String) (h : P span) : Places P (Expr.Placed P) (ctx.freeName name span) := by
  unfold freeName
  refine .andThen points_env fun env => ?_
  split
  · exact .pure (placed_thisNode env h)
  · split
    · exact .pure (placed_classNode _ h)
    · split
      · refine .andThen (points_remember _) fun _ => .andThen points_newSite fun site => .pure (Expr.placed h ?_)
        exact List.forall_mem_singleton.2 (placed_thisNode env h)
      · split
        · exact .pure (placed_classNode _ h)
        · exact places_unknownName name h

theorem places_ident (name : String) (h : P span) : Places P (Expr.Placed P) (ctx.ident name span) := by
  unfold ident
  refine .andThen points_get fun s => ?_
  split
  · exact .pure (placed_declared _ name h)
  · split
    · exact .andThen (points_remember _) fun _ => .pure (placed_declared _ name h)
    · split
      · exact .andThen (points_remember _) fun _ => places_inputNode name _ h
      · exact places_freeName name h

/-! ## Members and calls -/

theorem points_dynamicMember (receiver : Ty) (member : String) (h : P span) :
    Points P (ctx.dynamicMember receiver member span) := by
  unfold dynamicMember
  exact .andThen points_rejectsDynamic fun _ => .ite (.fail _ h) (.pure trivial)

theorem points_propertyType (receiver : Ty) (name : String) (h : P span) :
    Points P (ctx.propertyType receiver name span) := by
  unfold propertyType
  split
  · exact points_dynamicMember receiver name h
  · exact points_dynamicMember receiver name h
  · exact .pure trivial
  · split
    · exact .pure trivial
    · split
      · exact .pure trivial
      · exact .andThen points_strong fun _ => .ite (.fail _ h) (.pure trivial)

theorem places_property {receiver : Expr} (given : receiver.Placed P) (name : String) (h : P span) :
    Places P (Expr.Placed P) (ctx.property receiver name span) := by
  unfold property
  dsimp only
  split
  · exact .andThen (points_remember _) fun _ => .pure (Expr.placed h (List.forall_mem_nil _))
  · refine .andThen (points_propertyType _ name h) fun type => ?_
    refine .andThen (points_remember _) fun _ => .andThen points_newSite fun site => .pure (Expr.placed h ?_)
    exact List.forall_mem_singleton.2 given

theorem places_propertyChain {e : Expr} (given : e.Placed P) (names : List String) (h : P span) :
    Places P (Expr.Placed P) (ctx.propertyChain span e names) := by
  induction names generalizing e with
  | nil => exact .pure given
  | cons name names ih =>
    unfold propertyChain
    exact .bind (places_property given name h) fun e' placed => ih placed

theorem points_overloadType (owner : Ty) (candidates : List Method) (name : String) (args : List Ty) (h : P span) :
    Points P (ctx.overloadType owner candidates name args span) := by
  unfold overloadType
  dsimp only
  split
  · exact .pure trivial
  · exact .pure trivial
  · exact .fail _ h
  · exact .fail _ h

theorem points_memberCallType (receiver : Ty) (name : String) (args : List Ty) (h : P span) :
    Points P (ctx.memberCallType receiver name args span) := by
  unfold memberCallType
  split
  · exact points_dynamicMember receiver name h
  · split
    · exact .andThen points_strong fun _ => .ite (.fail _ h) (.pure trivial)
    · exact points_overloadType receiver _ name args h

theorem points_callType (receiver : Expr) (name : String) (args : List Ty) (h : P span) :
    Points P (ctx.callType receiver name args span) := by
  unfold callType
  split
  · split
    · exact points_memberCallType _ name args h
    · exact points_overloadType _ _ name args h
  · exact points_memberCallType _ name args h

theorem places_methodCall {receiver : Expr} {args : List Expr} (given : receiver.Placed P)
    (others : ∀ e ∈ args, e.Placed P) (name : String) (h : P span) :
    Places P (Expr.Placed P) (ctx.methodCall receiver name args span) := by
  unfold methodCall
  refine .andThen (points_callType receiver name _ h) fun type => ?_
  refine .andThen (points_remember _) fun _ => .andThen points_newSite fun site => .pure (Expr.placed h ?_)
  exact List.forall_mem_cons.2 ⟨given, others⟩

theorem places_callFunction {args : List Expr} (given : ∀ e ∈ args, e.Placed P) (name : String) (h : P span) :
    Places P (Expr.Placed P) (ctx.callFunction name args span) := by
  unfold callFunction
  refine .andThen points_env fun env => ?_
  split
  · dsimp only
    split
    · exact .andThen (.fail _ h) fun _ => .pure (Expr.placed h given)
    · exact .pure (Expr.placed h given)
  · exact places_methodCall (placed_thisNode env h) given name h

theorem places_callNamed {args : List Expr} (given : ∀ e ∈ args, e.Placed P) (name : String) (h : P span) :
    Places P (Expr.Placed P) (ctx.callNamed name args span) := by
  unfold callNamed
  split
  · exact .pure (Expr.placed h given)
  · exact places_callFunction given name h

theorem points_indexType (receiver : Ty) (h : P span) : Points P (ctx.indexType receiver span) := by
  unfold indexType
  split
  · exact .pure trivial
  · exact .pure trivial
  · exact .pure trivial
  · exact points_dynamicMember receiver "[]" h
  · exact points_dynamicMember receiver "[]" h
  · exact .fail _ h

theorem places_index {receiver position : Expr} (given : receiver.Placed P) (at' : position.Placed P) (h : P span) :
    Places P (Expr.Placed P) (ctx.index receiver position span) := by
  unfold index
  refine .andThen (points_indexType _ h) fun type => ?_
  refine .andThen (points_remember _) fun _ => .andThen points_newSite fun site => .pure (Expr.placed h ?_)
  simpa [Expr.children] using ⟨given, at'⟩

theorem points_iteratedType {items : Expr} (given : items.Placed P) : Points P (ctx.iteratedType items) := by
  have here : P items.span := Expr.placed_span given
  unfold iteratedType
  split <;> first | exact .pure trivial | exact .fail _ here

theorem points_chosenConstructor (type : Ty) (args : List Ty) (h : P span) :
    Points P (ctx.chosenConstructor type args span) := by
  unfold chosenConstructor
  dsimp only
  split
  · exact .pure trivial
  · split
    · exact .pure trivial
    · exact .pure trivial
    · exact .fail _ h
    · exact .fail _ h

theorem places_construct {args : List Expr} (given : ∀ e ∈ args, e.Placed P) (type : Ty) (h : P span) :
    Places P (Expr.Placed P) (ctx.construct type args span) := by
  unfold construct
  refine .andThen (points_chosenConstructor type _ h) fun chosen => ?_
  exact .andThen (points_remember _) fun _ => .pure (Expr.placed h given)

/-! ## Operators and assignments -/

theorem points_arithType (op : ArithOp) (left right : Ty) (h : P span) :
    Points P (ctx.arithType op left right span) := by
  unfold arithType
  split
  · exact .pure trivial
  · split
    · exact .pure trivial
    · exact .andThen points_strong fun _ => .ite (.pure trivial) (.fail _ h)

theorem points_checkComparison (op : CompareOp) (left right : Ty) (h : P span) :
    Points P (ctx.checkComparison op left right span) := by
  unfold checkComparison
  exact .andThen points_strong fun _ => .ite (.fail _ h) (.pure trivial)

theorem points_unaryType (op : UnaryOp) (operand : Ty) (h : P span) : Points P (ctx.unaryType op operand span) := by
  unfold unaryType
  split
  · exact .pure trivial
  · split
    · exact .pure trivial
    · exact .andThen points_strong fun _ => .ite (.pure trivial) (.fail _ h)

theorem points_checkCondition {cond : Expr} (given : cond.Placed P) : Points P (ctx.checkCondition cond) := by
  unfold checkCondition
  exact .ite (.pure trivial) (points_checkCoercion _ _ (Expr.placed_span given))

theorem points_checkCast (source target : Ty) (h : P span) : Points P (ctx.checkCast source target span) := by
  unfold checkCast
  exact .ite (.pure trivial) (points_checkCoercion _ _ h)

theorem points_checkLength {length : Expr} (given : length.Placed P) : Points P (ctx.checkLength length) := by
  unfold checkLength
  exact .ite (.pure trivial) (points_checkCoercion _ _ (Expr.placed_span given))

theorem points_checkAssignable (target : Expr) (h : P span) : Points P (ctx.checkAssignable target span) := by
  unfold checkAssignable
  exact .ite (.pure trivial) (.fail _ h)

theorem points_checkWritable (target : Expr) (h : P span) : Points P (ctx.checkWritable target span) := by
  unfold checkWritable
  split
  · exact .andThen points_strong fun _ => .ite (.fail _ h) (.pure trivial)
  · exact .pure trivial

theorem places_assignedName (name : String) (value : Ty) (h : P span) :
    Places P (fun r => r.1.Placed P) (ctx.assignedName name span value) := by
  unfold assignedName
  refine .andThen points_get fun s => ?_
  split
  · exact .pure (placed_declared _ name h)
  · split
    · exact .pure (placed_declared _ name h)
    · split
      · exact .bind (places_inputNode name _ h) fun node placed => .pure placed
      · split
        · refine .bind (places_ident name h) fun target placed => ?_
          exact .andThen (points_checkAssignable target (Expr.placed_span placed)) fun _ => .pure placed
        · exact .andThen (points_modifyEnv _) fun _ => .pure (placed_declared _ name h)

theorem places_checkedTarget {analyzed : Analysis Expr} (given : Places P (Expr.Placed P) analyzed) (h : P span) :
    Places P (fun r => r.1.Placed P) (ctx.checkedTarget analyzed span) := by
  unfold checkedTarget
  refine .bind given fun node placed => .andThen (points_checkWritable node h) fun _ => ?_
  exact .andThen (points_checkAssignable node (Expr.placed_span placed)) fun _ => .pure placed

theorem places_assignedTarget {target : Syntax.Expr} {analyzed : Analysis Expr} (value : Ty) (h : P target.span)
    (given : Places P (Expr.Placed P) analyzed) :
    Places P (fun r => r.1.Placed P) (ctx.assignedTarget target analyzed value) := by
  obtain ⟨span, name, rfl⟩ | read | refused := assignedTarget_cases target
  · exact places_assignedName name value h
  · rw [read]
    exact places_checkedTarget given h
  · rw [refused]
    exact .fail _ h

theorem places_plainAssignment {value target : Expr} (given : value.Placed P) (stores : target.Placed P)
    (stored : Option Ty) (h : P span) : Places P (Expr.Placed P) (ctx.plainAssignment value target stored span) := by
  have operands : ∀ x ∈ [target, value], x.Placed P := by simpa using ⟨stores, given⟩
  unfold plainAssignment
  cases stored with
  | none => exact .pure (Expr.placed h operands)
  | some type =>
    exact .andThen (points_checkCoercion _ _ (Expr.placed_span given)) fun _ => .pure (Expr.placed h operands)

theorem places_compoundAssignment {target value : Expr} (stores : target.Placed P) (given : value.Placed P)
    (op : ArithOp) (h : P span) : Places P (Expr.Placed P) (ctx.compoundAssignment op target value span) := by
  have operands : ∀ x ∈ [target, value], x.Placed P := by simpa using ⟨stores, given⟩
  unfold compoundAssignment
  refine .andThen (points_checkAssignable target (Expr.placed_span stores)) fun _ => ?_
  refine .andThen (points_arithType op _ _ h) fun result => ?_
  dsimp only
  cases storedType? target.type with
  | none => exact .pure (Expr.placed h operands)
  | some type => exact .andThen (points_checkCoercion _ _ h) fun _ => .pure (Expr.placed h operands)

theorem places_stepNode {target : Expr} (given : target.Placed P) (op : StepOp) (h : P span) :
    Places P (Expr.Placed P) (ctx.stepNode op target span) := by
  have node : (Expr.step ⟨target.type, span⟩ op target).Placed P := Expr.placed h (List.forall_mem_singleton.2 given)
  unfold stepNode
  refine .andThen (points_checkAssignable target h) fun _ => .andThen points_strong fun strong => ?_
  exact .ite (.andThen (.fail _ h) fun _ => .pure node) (.pure node)

/-! ## Expressions -/

mutual

/-- Where `P` holds of the spans in an expression, it holds of those in its typed form, or of that of an error. -/
theorem places_expr {e : Syntax.Expr} (h : e.Placed P) (hint : Option Ty) :
    Places P (Expr.Placed P) (ctx.expr e hint) := by
  -- by recursion on the expression: its own span is one that errors may point to, and so are those of its parts
  have here := h.span
  have below := h.inside
  cases e with
  | literal span value =>
    unfold expr
    exact .pure (Expr.placed here (List.forall_mem_nil _))
  | ident span name =>
    unfold expr
    exact places_ident name here
  | field span receiver name =>
    unfold expr
    refine .andThen points_get fun s => ?_
    split
    · exact places_propertyChain (placed_classNode _ here) _ here
    · exact .bind (places_expr (below receiver (.head _)) none) fun receiver hr => places_property hr name here
  | methodCall span receiver name args =>
    unfold expr
    refine .bind (places_expr (below receiver (.head _)) none) fun receiver hr => ?_
    exact .bind (places_exprs fun e he => below e (.tail _ he)) fun args ha => places_methodCall hr ha name here
  | call span name args =>
    unfold expr
    exact .bind (places_exprs below) fun args ha => places_callNamed ha name here
  | index span receiver position =>
    unfold expr
    refine .bind (places_expr (below receiver (.head _)) none) fun receiver hr => ?_
    exact .bind (places_expr (below position (by simp [Syntax.Expr.children])) none) fun position hp =>
      places_index hr hp here
  | assign span target op value =>
    have ht := below target (.head _)
    have hv := below value (by simp [Syntax.Expr.children])
    cases op with
    | plain =>
      unfold expr
      refine .bind (places_expr hv none) fun value hv => ?_
      refine .bind (places_assignedTarget value.type ht.span (places_expr ht none)) fun assigned ha => ?_
      exact places_plainAssignment hv ha assigned.2 here
    | compound op =>
      unfold expr
      refine .bind (places_expr ht none) fun target ht => .bind (places_expr hv none) fun value hv => ?_
      exact places_compoundAssignment ht hv op here
  | arith span op left right =>
    unfold expr
    refine .bind (places_expr (below left (.head _)) none) fun left hl => ?_
    refine .bind (places_expr (below right (by simp [Syntax.Expr.children])) none) fun right hr => ?_
    refine .andThen (points_arithType op _ _ here) fun type => .pure (Expr.placed here ?_)
    simpa [Expr.children] using ⟨hl, hr⟩
  | logic span op left right =>
    unfold expr
    refine .bind (places_expr (below left (.head _)) none) fun left hl => ?_
    refine .andThen (points_checkCondition hl) fun _ => ?_
    refine .bind (places_expr (below right (by simp [Syntax.Expr.children])) none) fun right hr => ?_
    refine .andThen (points_checkCondition hr) fun _ => .pure (Expr.placed here ?_)
    simpa [Expr.children] using ⟨hl, hr⟩
  | compare span op left right =>
    unfold expr
    refine .bind (places_expr (below left (.head _)) none) fun left hl => ?_
    refine .bind (places_expr (below right (by simp [Syntax.Expr.children])) none) fun right hr => ?_
    refine .andThen (points_checkComparison op _ _ here) fun _ => .pure (Expr.placed here ?_)
    simpa [Expr.children] using ⟨hl, hr⟩
  | unary span op operand =>
    unfold expr
    refine .bind (places_expr (below operand (.head _)) none) fun operand ho => ?_
    have node : Places P (Expr.Placed P) (do
        return Expr.unary ⟨← ctx.unaryType op operand.type span, span⟩ op operand) :=
      .andThen (points_unaryType op _ here) fun type => .pure (Expr.placed here (List.forall_mem_singleton.2 ho))
    cases op with
    | not => exact .andThen (points_checkCondition ho) fun _ => node
    | neg => exact node
  | step span op target =>
    unfold expr
    exact .bind (places_expr (below target (.head _)) none) fun target ht => places_stepNode ht op here
  | cast span type operand =>
    unfold expr
    refine .andThen (points_resolveType (h.type type rfl)) fun type => ?_
    refine .bind (places_expr (below operand (.head _)) (some type)) fun operand ho => ?_
    refine .andThen (points_checkCast _ type here) fun _ => .pure (Expr.placed here ?_)
    exact List.forall_mem_singleton.2 ho
  | conditional span cond thenBranch elseBranch =>
    unfold expr
    refine .bind (places_expr (below cond (.head _)) none) fun cond hc => ?_
    refine .andThen (points_checkCondition hc) fun _ => ?_
    refine .bind (places_expr (below thenBranch (by simp [Syntax.Expr.children])) hint) fun first hf => ?_
    refine .bind (places_expr (below elseBranch (by simp [Syntax.Expr.children])) hint) fun second hs => ?_
    exact .pure (Expr.placed here (by simpa [Expr.children] using ⟨hc, hf, hs⟩))
  | construct span type args =>
    unfold expr
    refine .andThen (points_resolveType (h.type type rfl)) fun type => ?_
    exact .bind (places_exprs below) fun args ha => places_construct ha type here
  | newArray span type items =>
    unfold expr
    refine .andThen (points_resolveType (h.type type rfl)) fun item => ?_
    exact .bind (places_arrayItems item below) fun items hi => .pure (Expr.placed here hi)
  | newSized span type length =>
    unfold expr
    refine .andThen (points_resolveType (h.type type rfl)) fun item => ?_
    refine .bind (places_expr (below length (.head _)) none) fun length hl => ?_
    exact .andThen (points_checkLength hl) fun _ => .pure (Expr.placed here (List.forall_mem_singleton.2 hl))
  | inlineArray span items =>
    unfold expr
    split
    · exact .bind (places_arrayItems _ below) fun items hi => .pure (Expr.placed here hi)
    · exact .bind (places_exprs below) fun items hi => .pure (Expr.placed here hi)
  | inlineList span items =>
    unfold expr
    refine .bind (places_exprs below) fun items hi => ?_
    exact .andThen (points_remember _) fun _ => .pure (Expr.placed here hi)
  | inlineMap span entries =>
    unfold expr
    refine .bind (places_exprEntries below) fun entries he => ?_
    exact .andThen (points_remember _) fun _ => .pure (Expr.placed here he)
termination_by sizeOf e

theorem places_exprs {es : List Syntax.Expr} (h : ∀ e ∈ es, e.Placed P) :
    Places P (fun rs => ∀ r ∈ rs, r.Placed P) (ctx.exprs es) := by
  cases es with
  | nil =>
    unfold exprs
    exact .pure (List.forall_mem_nil _)
  | cons e es =>
    unfold exprs
    refine .bind (places_expr (h e (.head es)) none) fun r hr => ?_
    refine .bind (places_exprs fun e he => h e (.tail _ he)) fun rs hrs => .pure ?_
    exact List.forall_mem_cons.2 ⟨hr, hrs⟩
termination_by sizeOf es

theorem places_arrayItems (item : Ty) {es : List Syntax.Expr} (h : ∀ e ∈ es, e.Placed P) :
    Places P (fun rs => ∀ r ∈ rs, r.Placed P) (ctx.arrayItems item es) := by
  cases es with
  | nil =>
    unfold arrayItems
    exact .pure (List.forall_mem_nil _)
  | cons e es =>
    unfold arrayItems
    refine .bind (places_expr (h e (.head es)) (some item)) fun r hr => ?_
    refine .andThen (points_checkCoercion _ item (Expr.placed_span hr)) fun _ => ?_
    refine .bind (places_arrayItems item fun e he => h e (.tail _ he)) fun rs hrs => .pure ?_
    exact List.forall_mem_cons.2 ⟨hr, hrs⟩
termination_by sizeOf es

theorem places_exprEntries {es : List (Syntax.Expr × Syntax.Expr)}
    (h : ∀ e ∈ es.flatMap fun (k, v) => [k, v], e.Placed P) :
    Places P (fun rs => ∀ r ∈ rs.flatMap fun (k, v) => [k, v], r.Placed P) (ctx.exprEntries es) := by
  match es with
  | [] =>
    unfold exprEntries
    exact .pure (List.forall_mem_nil _)
  | (key, value) :: rest =>
    unfold exprEntries
    refine .bind (places_expr (h key (.head _)) none) fun k hk => ?_
    refine .bind (places_expr (h value (.tail _ (.head _))) none) fun v hv => ?_
    refine .bind (places_exprEntries fun e he => h e (.tail _ (.tail _ he))) fun rs hrs => .pure ?_
    exact List.forall_mem_cons.2 ⟨hk, List.forall_mem_cons.2 ⟨hv, hrs⟩⟩
termination_by sizeOf es

end

/-! ## Statements -/

theorem places_expr? {e : Option Syntax.Expr} (h : ∀ x ∈ e, x.Placed P) (hint : Option Ty) :
    Places P (fun r => ∀ x ∈ r.toList, x.Placed P) (ctx.expr? e hint) := by
  cases e with
  | none => exact .pure (List.forall_mem_nil _)
  | some e => exact .map (places_expr (h e rfl) hint) fun r hr => List.forall_mem_singleton.2 hr

theorem places_condition {e : Syntax.Expr} (h : e.Placed P) : Places P (Expr.Placed P) (ctx.condition e) := by
  unfold condition
  refine .bind (places_expr h none) fun cond hc => ?_
  exact .andThen (points_checkCondition hc) fun _ => .pure hc

theorem places_condition? {e : Option Syntax.Expr} (h : ∀ x ∈ e, x.Placed P) :
    Places P (fun r => ∀ x ∈ r.toList, x.Placed P) (ctx.condition? e) := by
  cases e with
  | none => exact .pure (List.forall_mem_nil _)
  | some e => exact .map (places_condition (h e rfl)) fun r hr => List.forall_mem_singleton.2 hr

theorem points_declareName (name : String) (type : Ty) : Points P (declareName name type) := by
  unfold declareName
  refine .andThen points_get fun s => .ite ?_ ?_
  · exact .andThen (points_modifyEnv _) fun _ => .pure trivial
  · exact .andThen (points_declareInBlock _ _) fun _ => .pure trivial

theorem points_checkInitial (declared : Option Ty) {init : Option Expr} (h : ∀ e ∈ init.toList, e.Placed P) :
    Points P (ctx.checkInitial declared init) := by
  unfold checkInitial
  split
  · rename_i type e
    exact points_checkCoercion _ _ (Expr.placed_span (h e (.head [])))
  · exact .pure trivial

theorem places_declarator (declared : Option Ty) {d : Syntax.Declarator} (here : P d.span)
    (h : ∀ e ∈ d.init, e.Placed P) : Places P (Stmt.Placed P) (ctx.declarator declared d) := by
  rw [declarator_eq]
  refine .bind (places_expr? h declared) fun init hi => .andThen (points_checkInitial declared hi) fun _ => ?_
  refine .andThen (points_declareName _ _) fun inBlock => .andThen (points_remember _) fun _ => .pure ?_
  exact .mk here (placed_map hi)

theorem places_declarators (declared : Option Ty) {ds : List Syntax.Declarator} (here : ∀ d ∈ ds, P d.span)
    (h : ∀ d ∈ ds, ∀ e ∈ d.init, e.Placed P) :
    Places P (fun rs => ∀ r ∈ rs, r.Placed P) (ctx.declarators declared ds) := by
  induction ds with
  | nil => exact .pure (List.forall_mem_nil _)
  | cons d ds ih =>
    unfold declarators
    refine .bind (places_declarator declared (here d (.head ds)) (h d (.head ds))) fun s hs => ?_
    refine .bind (ih (fun d hd => here d (.tail _ hd)) fun d hd => h d (.tail _ hd)) fun ss hss => .pure ?_
    exact List.forall_mem_cons.2 ⟨hs, hss⟩

theorem places_returned (start : P (.point 0)) {value : Option Syntax.Expr} (h : ∀ x ∈ value, x.Placed P) :
    Places P (Stmt.Placed P) (ctx.returned value) := by
  unfold returned
  refine .bind (places_expr? h none) fun value hv => .andThen (fun _ => trivial) fun _ => .pure ?_
  refine .mk ?_ (placed_map hv)
  cases value with
  | none => exact start
  | some e => exact Expr.placed_span (hv e (.head []))

theorem points_importPackage (package : String) (h : P span) : Points P (ctx.importPackage package span) := by
  unfold importPackage
  split
  · exact .fail _ h
  · exact points_modifyEnv _

theorem points_importClass (path : String) (h : P span) : Points P (ctx.importClass path span) := by
  unfold importClass
  split
  · exact points_modifyEnv _
  · exact .fail _ h

theorem placed_single (start : P (.point 0)) {body : List Stmt} (h : ∀ s ∈ body, s.Placed P) :
    (single body).Placed P := by
  unfold single
  split
  · exact h _ (.head [])
  · exact .mk start (placed_map_stmt h)

/-- A `for` statement behind its start. -/
theorem places_loopParts (start : P (.point 0)) {init : Option Stmt} {cond : Option Syntax.Expr}
    {update : List Syntax.Expr} {body : List Syntax.Stmt} (hi : ∀ s ∈ init.toList, s.Placed P)
    (conds : ∀ e ∈ cond, e.Placed P) (updates : ∀ e ∈ update, e.Placed P)
    (row : Places P (fun rs => ∀ r ∈ rs, r.Placed P) (ctx.stmts body)) :
    Places P (fun rs => ∀ r ∈ rs, r.Placed P) (ctx.loopParts init cond update body) := by
  unfold loopParts
  refine .bind (places_condition? conds) fun cond hc => .bind (places_exprs updates) fun update hu => ?_
  refine .bind row.inBlock fun body hb => .pure (List.forall_mem_singleton.2 (.mk ?_ ?_))
  · -- a loop without a condition is at the start of the source
    cases cond with
    | none => exact start
    | some e => exact Expr.placed_span (hc e (.head []))
  · intro m hm
    rcases List.mem_append.1 hm with hm | hm
    · exact placed_map (fun e he => (List.mem_append.1 he).elim (hc e) (hu e)) m hm
    · exact placed_map_stmt (fun s hs => (List.mem_append.1 hs).elim (hi s) (hb s)) m hm

mutual

/-- Where `P` holds of the spans in a statement and of the empty one at the start, it holds of those in its typed
form, or of that of an error. -/
theorem places_stmt (start : P (.point 0)) {s : Syntax.Stmt} (h : s.Placed P) :
    Places P (fun rs => ∀ r ∈ rs, r.Placed P) (ctx.stmt s) := by
  obtain ⟨spans, type, exprs, inside⟩ := h
  cases s with
  | expr e =>
    unfold stmt
    refine .bind (places_expr (exprs e (.head [])) none) fun e he => .pure ?_
    exact List.forall_mem_singleton.2 (Stmt.placed_expr he)
  | declare type' ds =>
    unfold stmt
    refine .andThen (points_resolveType? type) fun declared => ?_
    exact places_declarators declared (fun d hd => spans _ (List.mem_map_of_mem hd)) fun d hd e he =>
      exprs e (List.mem_filterMap.2 ⟨d, hd, he⟩)
  | branch cond thenBody elseBody =>
    unfold stmt
    refine .bind (places_condition (exprs cond (.head []))) fun cond hc => ?_
    have first := places_stmts start fun s hs => inside s (List.mem_append_left _ hs)
    refine .bind first.inBlock fun thenBody ht => ?_
    -- the branch for the other case may be missing
    have node {elseBody : Option (List Stmt)} (he : ∀ s ∈ elseBody.getD [], s.Placed P) :
        ∀ r ∈ [Stmt.branch (effectInfo cond.span) cond thenBody elseBody], r.Placed P := by
      refine List.forall_mem_singleton.2 (.mk (Expr.placed_span hc) (List.forall_mem_cons.2 ⟨hc, placed_map_stmt ?_⟩))
      exact fun s hs => (List.mem_append.1 hs).elim (ht s) (he s)
    cases elseBody with
    | none => exact .pure (node (List.forall_mem_nil _))
    | some body =>
      have last := places_stmts start fun s hs => inside s (List.mem_append_right _ hs)
      exact .bind (last.inBlock.map fun ss hss => hss) fun elseBody he => .pure (node he)
  | whileLoop cond body =>
    unfold stmt
    have nested : ∀ s ∈ body, s.Placed P := inside
    refine .bind (places_condition (exprs cond (.head []))) fun cond hc => ?_
    refine .bind (places_stmts start nested).inBlock fun body hb => .pure (List.forall_mem_singleton.2 ?_)
    exact .mk (Expr.placed_span hc) (List.forall_mem_cons.2 ⟨hc, placed_map_stmt hb⟩)
  | forLoop init cond update body =>
    have conds : ∀ x ∈ cond, x.Placed P := fun x hx => exprs x (List.mem_append_left _ (by simpa using hx))
    have updates : ∀ e ∈ update, e.Placed P := fun e he => exprs e (List.mem_append_right _ he)
    have row := places_stmts start fun s (hs : s ∈ body) => inside s (List.mem_append_right _ hs)
    cases init with
    | none =>
      rw [stmt_forLoop_none]
      exact Places.inBlock (places_loopParts start (List.forall_mem_nil _) conds updates row)
    | some s =>
      rw [stmt_forLoop_some]
      refine Places.inBlock (.bind (places_stmt start (inside s (.head _))) fun ss hss => ?_)
      have started := List.forall_mem_singleton.2 (placed_single start hss)
      exact places_loopParts start started conds updates row
  | forEach type' name span items body =>
    unfold stmt
    have nested : ∀ s ∈ body, s.Placed P := inside
    refine .andThen (points_resolveType? type) fun declared => ?_
    refine .bind (places_expr (exprs items (.head [])) none) fun items hi => ?_
    refine .andThen (points_iteratedType hi) fun item => Places.inBlock ?_
    refine .andThen (points_declareInBlock _ _) fun _ => ?_
    refine .bind (places_stmts start nested).inBlock fun body hb => .pure (List.forall_mem_singleton.2 ?_)
    exact .mk (spans span (.head [])) (List.forall_mem_cons.2 ⟨hi, placed_map_stmt hb⟩)
  | block body =>
    unfold stmt
    have nested : ∀ s ∈ body, s.Placed P := inside
    refine .bind (places_stmts start nested).inBlock fun body hb => .pure (List.forall_mem_singleton.2 ?_)
    exact .mk start (placed_map_stmt hb)
  | returns value =>
    unfold stmt
    refine .bind (places_returned start fun x hx => exprs x ?_) fun s hs => .pure (List.forall_mem_singleton.2 hs)
    simpa [Syntax.Stmt.exprs] using hx
  | importPath path everything span =>
    have here : P span := spans span (.head [])
    have node : ∀ r ∈ [Stmt.nop ⟨.null, span⟩], r.Placed P :=
      List.forall_mem_singleton.2 (.mk here (List.forall_mem_nil _))
    unfold stmt
    cases everything with
    | true => exact .andThen (points_importPackage path here) fun _ => .pure node
    | false => exact .andThen (points_importClass path here) fun _ => .pure node
termination_by sizeOf s

theorem places_stmts (start : P (.point 0)) {ss : List Syntax.Stmt} (h : ∀ s ∈ ss, s.Placed P) :
    Places P (fun rs => ∀ r ∈ rs, r.Placed P) (ctx.stmts ss) := by
  cases ss with
  | nil =>
    unfold stmts
    exact .pure (List.forall_mem_nil _)
  | cons s ss =>
    unfold stmts
    refine .bind (places_stmt start (h s (.head ss))) fun first hf => ?_
    refine .bind (places_stmts start fun s hs => h s (.tail _ hs)) fun rest hr => .pure ?_
    exact fun r hm => (List.mem_append.1 hm).elim (hf r) (hr r)
termination_by sizeOf ss

end

/-! ## Programs -/

theorem places_program (start : P (.point 0)) {body : List Syntax.Stmt} (h : ∀ s ∈ body, s.Placed P) :
    Places P (fun p => ∀ s ∈ p.body, s.Placed P) (ctx.program body) := by
  unfold program
  exact .bind (places_stmts start h) fun ss hss => .andThen points_get fun s => .pure hss

theorem places_setter (whole : P ⟨0, byteLength ctx.source⟩) {body : List Syntax.Stmt}
    (h : ∀ s ∈ body, s.Placed P) : Places P (fun p => ∀ s ∈ p.body, s.Placed P) (ctx.setter body) := by
  unfold setter
  split
  · rename_i target
    obtain ⟨-, -, exprs, -⟩ := h _ (.head [])
    have given : target.Placed P := exprs target (.head [])
    refine .bind (places_assignedTarget .object given.span (places_expr given none)) fun assigned ha => ?_
    exact .andThen points_get fun s => .pure (List.forall_mem_singleton.2 (Stmt.placed_expr ha))
  · exact .fail _ whole

/-- Where `P` holds of the spans of a source, of the empty one at its start and of the whole, it holds of all spans in
the typed program, or of that of an error. -/
theorem placed_analyze (ctx : Context) (start : P (.point 0)) (whole : P ⟨0, byteLength ctx.source⟩)
    {body : List Syntax.Stmt} (h : ∀ s ∈ body, s.Placed P) (setter : Bool) (env : Environment) :
    match (ctx.analyze setter body env).1 with
    | .ok p => ∀ s ∈ p.body, s.Placed P
    | .error e => P e.span := by
  have placed : Places P (fun p => ∀ s ∈ p.body, s.Placed P) (if setter then ctx.setter body else ctx.program body) :=
    .ite (places_setter whole h) (places_program start h)
  have outcome : (ctx.analyze setter body env).1
      = ((if setter then ctx.setter body else ctx.program body) (.ofEnvironment env)).1 := rfl
  have placed := placed (.ofEnvironment env)
  rw [outcome]
  split at placed
  · rename_i p found
    rw [found]
    exact placed
  · rename_i e found
    rw [found]
    exact placed

end Context

end HostExpr
