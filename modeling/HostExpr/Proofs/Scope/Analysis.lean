import HostExpr.Proofs.Typing.Checks

/-!
# Steps of an analysis that leave the scopes alone

Only blocks and declarations open, close or fill scopes. Whatever else an analysis does leaves them as they are, also
if it fails; in particular all of an expression is analyzed in the same scopes.
-/

namespace HostExpr

namespace Analysis

variable {α β : Type}

/-- The step leaves the scopes as they are, whatever comes of it. -/
def KeepsScopes (step : Analysis α) : Prop := ∀ a, (step a).2.scopes = a.scopes

namespace KeepsScopes

theorem pure (r : α) : KeepsScopes (Pure.pure r) := fun _ => rfl

theorem fail (cause : CompileCause) (span : Span) : KeepsScopes (Analysis.fail cause span : Analysis α) :=
  fun _ => rfl

theorem get : KeepsScopes (MonadState.get : Analysis AnalysisState) := fun _ => rfl

theorem env : KeepsScopes Analysis.env := fun _ => rfl

theorem modifyEnv (f : Environment → Environment) : KeepsScopes (Analysis.modifyEnv f) := fun _ => rfl

theorem remember (t : Ty) : KeepsScopes (Analysis.remember t) := fun _ => rfl

theorem newSite : KeepsScopes Analysis.newSite := fun _ => rfl

/-- One step after the other. -/
theorem bind {x : Analysis α} {f : α → Analysis β} (hx : KeepsScopes x) (hf : ∀ r, KeepsScopes (f r)) :
    KeepsScopes (x >>= f) := by
  intro a
  have first := hx a
  show (ExceptT.bindCont f (x a).1 (x a).2).2.scopes = a.scopes
  rw [← first]
  cases (x a).1 with
  | ok r => exact hf r _
  | error e => rfl

theorem map {x : Analysis α} (f : α → β) (hx : KeepsScopes x) : KeepsScopes (f <$> x) :=
  hx.bind fun r => .pure (f r)

end KeepsScopes

/-- A step that leaves the state as it is. -/
theorem Asks.keepsScopes {x : Analysis α} (h : Asks x) : KeepsScopes x :=
  fun a => congrArg AnalysisState.scopes (h.checks a)

end Analysis

namespace Context

open Typed Analysis

variable (ctx : Context)

/-! ## Names -/

theorem keepsScopes_inputNode (name : String) (type : Ty) (span : Span) :
    KeepsScopes (inputNode name type span) := .bind .newSite fun _ => .pure _

theorem keepsScopes_unknownName (name : String) (span : Span) : KeepsScopes (unknownName name span) := by
  unfold unknownName
  refine .bind .env fun env => ?_
  split
  · exact .fail _ _
  · split
    · exact .bind (.modifyEnv _) fun _ => .pure _
    · exact .bind (.modifyEnv _) fun _ => keepsScopes_inputNode _ _ _

theorem keepsScopes_freeName (name : String) (span : Span) : KeepsScopes (ctx.freeName name span) := by
  unfold freeName
  refine .bind .env fun env => ?_
  split
  · exact .pure _
  · split
    · exact .pure _
    · split
      · exact .bind (.remember _) fun _ => .bind .newSite fun _ => .pure _
      · split
        · exact .pure _
        · exact keepsScopes_unknownName name span

theorem keepsScopes_ident (name : String) (span : Span) : KeepsScopes (ctx.ident name span) := by
  unfold ident
  refine .bind .get fun s => ?_
  split
  · exact .pure _
  · split
    · exact .bind (.remember _) fun _ => .pure _
    · split
      · exact .bind (.remember _) fun _ => keepsScopes_inputNode _ _ _
      · exact ctx.keepsScopes_freeName name span

/-! ## Members and calls -/

theorem keepsScopes_property (receiver : Expr) (name : String) (span : Span) :
    KeepsScopes (ctx.property receiver name span) := by
  unfold property
  dsimp only
  split
  · exact .bind (.remember _) fun _ => .pure _
  · refine .bind (ctx.asks_propertyType _ name span).keepsScopes fun type => ?_
    exact .bind (.remember _) fun _ => .bind .newSite fun _ => .pure _

theorem keepsScopes_propertyChain (span : Span) (e : Expr) (names : List String) :
    KeepsScopes (ctx.propertyChain span e names) := by
  induction names generalizing e with
  | nil => exact .pure _
  | cons name names ih =>
    unfold propertyChain
    exact .bind (ctx.keepsScopes_property e name span) fun e => ih e

theorem keepsScopes_methodCall (receiver : Expr) (name : String) (args : List Expr) (span : Span) :
    KeepsScopes (ctx.methodCall receiver name args span) := by
  unfold methodCall
  refine .bind (ctx.asks_callType receiver name _ span).keepsScopes fun type => ?_
  exact .bind (.remember _) fun _ => .bind .newSite fun _ => .pure _

theorem keepsScopes_callFunction (name : String) (args : List Expr) (span : Span) :
    KeepsScopes (ctx.callFunction name args span) := by
  unfold callFunction
  refine .bind .env fun env => ?_
  split
  · dsimp only
    split
    · exact .fail _ _
    · exact .pure _
  · exact ctx.keepsScopes_methodCall _ name args span

theorem keepsScopes_callNamed (name : String) (args : List Expr) (span : Span) :
    KeepsScopes (ctx.callNamed name args span) := by
  unfold callNamed
  split
  · exact .pure _
  · exact ctx.keepsScopes_callFunction name args span

theorem keepsScopes_index (receiver position : Expr) (span : Span) :
    KeepsScopes (ctx.index receiver position span) := by
  unfold index
  refine .bind (ctx.asks_indexType _ span).keepsScopes fun type => ?_
  exact .bind (.remember _) fun _ => .bind .newSite fun _ => .pure _

theorem keepsScopes_construct (type : Ty) (args : List Expr) (span : Span) :
    KeepsScopes (ctx.construct type args span) := by
  unfold construct
  refine .bind (ctx.asks_chosenConstructor type _ span).keepsScopes fun chosen => ?_
  exact .bind (.remember _) fun _ => .pure _

/-! ## Literals -/

theorem keepsScopes_inlineList (items : List Expr) (span : Span) : KeepsScopes (ctx.inlineList items span) :=
  .bind (.remember _) fun _ => .pure _

theorem keepsScopes_inlineMap (entries : List (Expr × Expr)) (span : Span) :
    KeepsScopes (ctx.inlineMap entries span) := .bind (.remember _) fun _ => .pure _

/-! ## Assignment -/

theorem keepsScopes_assignedName (name : String) (span : Span) (value : Ty) :
    KeepsScopes (ctx.assignedName name span value) := by
  unfold assignedName
  refine .bind .get fun s => ?_
  split
  · exact .pure _
  · split
    · exact .pure _
    · split
      · exact .bind (keepsScopes_inputNode _ _ _) fun _ => .pure _
      · split
        · refine .bind (ctx.keepsScopes_ident name span) fun target => ?_
          exact .bind (ctx.asks_checkAssignable target _).keepsScopes fun _ => .pure _
        · exact .bind (.modifyEnv _) fun _ => .pure _

theorem keepsScopes_checkedTarget {analyzed : Analysis Expr} (h : KeepsScopes analyzed) (span : Span) :
    KeepsScopes (ctx.checkedTarget analyzed span) := by
  unfold checkedTarget
  refine .bind h fun node => ?_
  refine .bind (ctx.asks_checkWritable node span).keepsScopes fun _ => ?_
  exact .bind (ctx.asks_checkAssignable node _).keepsScopes fun _ => .pure _

theorem keepsScopes_assignedTarget (target : Syntax.Expr) {analyzed : Analysis Expr} (h : KeepsScopes analyzed)
    (value : Ty) : KeepsScopes (ctx.assignedTarget target analyzed value) := by
  obtain ⟨span, name, rfl⟩ | read | refused := assignedTarget_cases target
  · exact ctx.keepsScopes_assignedName name span value
  · rw [read]
    exact ctx.keepsScopes_checkedTarget h _
  · rw [refused]
    exact .fail _ _

/-! ## Expressions -/

mutual

/-- The analysis of an expression leaves the scopes as they are. -/
theorem keepsScopes_expr (e : Syntax.Expr) (hint : Option Ty) : KeepsScopes (ctx.expr e hint) := by
  -- by recursion on the expression: no expression opens, closes or extends a block
  cases e with
  | literal span value =>
    unfold expr
    exact .pure _
  | ident span name =>
    unfold expr
    exact ctx.keepsScopes_ident name span
  | field span receiver name =>
    unfold expr
    refine .bind .get fun s => ?_
    split
    · exact ctx.keepsScopes_propertyChain span _ _
    · exact .bind (keepsScopes_expr receiver none) fun e => ctx.keepsScopes_property e name span
  | methodCall span receiver name args =>
    unfold expr
    refine .bind (keepsScopes_expr receiver none) fun receiver => ?_
    exact .bind (keepsScopes_exprs args) fun args => ctx.keepsScopes_methodCall receiver name args span
  | call span name args =>
    unfold expr
    exact .bind (keepsScopes_exprs args) fun args => ctx.keepsScopes_callNamed name args span
  | index span receiver position =>
    unfold expr
    refine .bind (keepsScopes_expr receiver none) fun receiver => ?_
    exact .bind (keepsScopes_expr position none) fun position => ctx.keepsScopes_index receiver position span
  | assign span target op value =>
    cases op with
    | plain =>
      unfold expr
      refine .bind (keepsScopes_expr value none) fun value => ?_
      refine .bind (ctx.keepsScopes_assignedTarget target (keepsScopes_expr target none) _) fun r => ?_
      exact (ctx.asks_plainAssignment value r.1 r.2 span).keepsScopes
    | compound op =>
      unfold expr
      refine .bind (keepsScopes_expr target none) fun target => ?_
      exact .bind (keepsScopes_expr value none) fun value =>
        (ctx.asks_compoundAssignment op target value span).keepsScopes
  | arith span op left right =>
    unfold expr
    refine .bind (keepsScopes_expr left none) fun left => ?_
    refine .bind (keepsScopes_expr right none) fun right => ?_
    exact .bind (ctx.asks_arithType op _ _ span).keepsScopes fun _ => .pure _
  | logic span op left right =>
    unfold expr
    refine .bind (keepsScopes_expr left none) fun left => ?_
    refine .bind (ctx.asks_checkCondition left).keepsScopes fun _ => ?_
    refine .bind (keepsScopes_expr right none) fun right => ?_
    exact .bind (ctx.asks_checkCondition right).keepsScopes fun _ => .pure _
  | compare span op left right =>
    unfold expr
    refine .bind (keepsScopes_expr left none) fun left => ?_
    refine .bind (keepsScopes_expr right none) fun right => ?_
    exact .bind (ctx.asks_checkComparison op _ _ span).keepsScopes fun _ => .pure _
  | unary span op operand =>
    unfold expr
    refine .bind (keepsScopes_expr operand none) fun operand => ?_
    have node : KeepsScopes (do
        let type ← ctx.unaryType op operand.type span
        return Expr.unary ⟨type, span⟩ op operand) :=
      .bind (ctx.asks_unaryType op _ span).keepsScopes fun _ => .pure _
    cases op with
    | not => exact .bind (ctx.asks_checkCondition operand).keepsScopes fun _ => node
    | neg => exact node
  | step span op target =>
    unfold expr
    exact .bind (keepsScopes_expr target none) fun target => (ctx.asks_stepNode op target span).keepsScopes
  | cast span type operand =>
    unfold expr
    refine .bind (ctx.asks_resolveType type).keepsScopes fun type => ?_
    refine .bind (keepsScopes_expr operand (some type)) fun operand => ?_
    exact .bind (ctx.asks_checkCast _ type span).keepsScopes fun _ => .pure _
  | conditional span cond thenBranch elseBranch =>
    unfold expr
    refine .bind (keepsScopes_expr cond none) fun cond => ?_
    refine .bind (ctx.asks_checkCondition cond).keepsScopes fun _ => ?_
    refine .bind (keepsScopes_expr thenBranch hint) fun a => ?_
    exact .bind (keepsScopes_expr elseBranch hint) fun b => .pure _
  | construct span type args =>
    unfold expr
    refine .bind (ctx.asks_resolveType type).keepsScopes fun type => ?_
    exact .bind (keepsScopes_exprs args) fun args => ctx.keepsScopes_construct type args span
  | newArray span type items =>
    unfold expr
    refine .bind (ctx.asks_resolveType type).keepsScopes fun type => ?_
    exact .bind (keepsScopes_arrayItems _ items) fun _ => .pure _
  | newSized span type length =>
    unfold expr
    refine .bind (ctx.asks_resolveType type).keepsScopes fun item => ?_
    refine .bind (keepsScopes_expr length none) fun length => ?_
    exact .bind (ctx.asks_checkLength length).keepsScopes fun _ => .pure _
  | inlineArray span items =>
    unfold expr
    split
    · exact .bind (keepsScopes_arrayItems _ items) fun _ => .pure _
    · exact .bind (keepsScopes_exprs items) fun _ => .pure _
  | inlineList span items =>
    unfold expr
    exact .bind (keepsScopes_exprs items) fun items => ctx.keepsScopes_inlineList items span
  | inlineMap span entries =>
    unfold expr
    exact .bind (keepsScopes_exprEntries entries) fun entries => ctx.keepsScopes_inlineMap entries span
termination_by sizeOf e

theorem keepsScopes_exprs (es : List Syntax.Expr) : KeepsScopes (ctx.exprs es) := by
  cases es with
  | nil =>
    unfold exprs
    exact .pure _
  | cons e es =>
    unfold exprs
    exact .bind (keepsScopes_expr e none) fun _ => .bind (keepsScopes_exprs es) fun _ => .pure _
termination_by sizeOf es

theorem keepsScopes_arrayItems (item : Ty) (es : List Syntax.Expr) : KeepsScopes (ctx.arrayItems item es) := by
  cases es with
  | nil =>
    unfold arrayItems
    exact .pure _
  | cons e es =>
    unfold arrayItems
    refine .bind (keepsScopes_expr e (some item)) fun e => ?_
    refine .bind (ctx.asks_checkCoercion _ item _).keepsScopes fun _ => ?_
    exact .bind (keepsScopes_arrayItems item es) fun _ => .pure _
termination_by sizeOf es

theorem keepsScopes_exprEntries (es : List (Syntax.Expr × Syntax.Expr)) : KeepsScopes (ctx.exprEntries es) := by
  match es with
  | [] =>
    unfold exprEntries
    exact .pure _
  | (key, value) :: rest =>
    unfold exprEntries
    refine .bind (keepsScopes_expr key none) fun key => ?_
    refine .bind (keepsScopes_expr value none) fun value => ?_
    exact .bind (keepsScopes_exprEntries rest) fun _ => .pure _
termination_by sizeOf es

end

/-! ## Parts of statements -/

theorem keepsScopes_importPackage (package : String) (span : Span) :
    KeepsScopes (ctx.importPackage package span) := by
  unfold importPackage
  split
  · exact .fail _ _
  · exact .modifyEnv _

theorem keepsScopes_importClass (path : String) (span : Span) : KeepsScopes (ctx.importClass path span) := by
  unfold importClass
  split
  · exact .modifyEnv _
  · exact .fail _ _

theorem keepsScopes_expr? (e : Option Syntax.Expr) (hint : Option Ty) : KeepsScopes (ctx.expr? e hint) := by
  cases e with
  | none => exact .pure _
  | some e => exact .map _ (ctx.keepsScopes_expr e hint)

theorem keepsScopes_condition (e : Syntax.Expr) : KeepsScopes (ctx.condition e) := by
  unfold condition
  refine .bind (ctx.keepsScopes_expr e none) fun cond => ?_
  exact .bind (ctx.asks_checkCondition cond).keepsScopes fun _ => .pure _

theorem keepsScopes_condition? (e : Option Syntax.Expr) : KeepsScopes (ctx.condition? e) := by
  cases e with
  | none => exact .pure _
  | some e => exact .map _ (ctx.keepsScopes_condition e)

end Context

end HostExpr
