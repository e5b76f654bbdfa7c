import HostExpr.Proofs.Engine.Compile
import HostExpr.Proofs.Strictness.Relaxed

/-!
# Strictness is a filter

Every step of an analysis is relaxed. What an analysis makes of a program or a setter under some settings it makes of it
under all looser ones: `analyze_under_of_within`. The settings decide what is rejected, and nothing else.
-/

namespace HostExpr

namespace Context

open Typed Analysis

variable (ctx : Context)

/-! ## Types and names -/

mutual

theorem relaxes_resolveType (t : Syntax.TypeExpr) : Relaxes (ctx.resolveType t) := by
  obtain ⟨path, args, dims, span⟩ := t
  unfold resolveType
  refine .ask (fun _ => rfl) (fun env => ?_) fun _ _ _ => Or.inl rfl
  split
  · exact .fail _ _
  · exact .bind (relaxes_resolveTypes args) fun _ => .pure _

theorem relaxes_resolveTypes (ts : List Syntax.TypeExpr) : Relaxes (ctx.resolveTypes ts) := by
  cases ts with
  | nil =>
    unfold resolveTypes
    exact .pure _
  | cons t ts =>
    unfold resolveTypes
    exact .bind (relaxes_resolveType t) fun _ => .bind (relaxes_resolveTypes ts) fun _ => .pure _

end

theorem relaxes_resolveType? (t : Option Syntax.TypeExpr) : Relaxes (ctx.resolveType? t) := by
  cases t with
  | none => exact .pure _
  | some t => exact .map _ (ctx.relaxes_resolveType t)

theorem relaxes_checkCoercion (source target : Ty) (span : Span) :
    Relaxes (ctx.checkCoercion source target span) := by
  unfold checkCoercion
  refine .strong (.pure _) ?_
  simp only [Bool.true_and, Bool.false_and]
  split
  · exact Or.inr (.fail _ _)
  · exact Or.inl rfl

theorem relaxes_inputNode (name : String) (type : Ty) (span : Span) :
    Relaxes (inputNode name type span) := .bind .newSite fun _ => .pure _

/-- A name that stands for nothing is rejected under either setting. -/
theorem relaxes_unknownName (name : String) (span : Span) : Relaxes (unknownName name span) := by
  unfold unknownName
  refine .ask (fun _ => rfl) (fun env => ?_) fun a s hs => ?_
  · split
    · exact .fail _ _
    · split
      · exact .bind (.modifyEnv (.declare _ _)) fun _ => .pure _
      · exact .bind (.modifyEnv (.addInput _ _)) fun _ => relaxes_inputNode _ _ _
  · by_cases rejected : a.env.strong || a.env.strict
    · right
      rw [if_pos rejected]
      exact .fail _ _
    · left
      -- settings that ask for no more ask for nothing either
      have strong : s.strong = false := by
        cases hq : s.strong with
        | false => rfl
        | true => exact absurd (Bool.or_eq_true_iff.2 (.inl (hs.strong hq))) rejected
      have strict : s.strict = false := by
        cases hq : s.strict with
        | false => rfl
        | true => exact absurd (Bool.or_eq_true_iff.2 (.inr (hs.strict hq))) rejected
      have rejected' : ¬ ((a.under s).env.strong || (a.under s).env.strict) := by
        simp [AnalysisState.under, Environment.under, strong, strict]
      rw [if_neg rejected, if_neg rejected']
      rfl

theorem relaxes_freeName (name : String) (span : Span) : Relaxes (ctx.freeName name span) := by
  unfold freeName
  refine .ask (fun _ => rfl) (fun env => ?_) fun _ _ _ => Or.inl rfl
  split
  · exact .pure _
  · split
    · exact .pure _
    · split
      · exact .bind (.remember _) fun _ => .bind .newSite fun _ => .pure _
      · split
        · exact .pure _
        · exact relaxes_unknownName name span

theorem relaxes_ident (name : String) (span : Span) : Relaxes (ctx.ident name span) := by
  unfold ident
  refine .ask (fun _ => rfl) (fun s => ?_) fun _ _ _ => Or.inl rfl
  split
  · exact .pure _
  · split
    · exact .bind (.remember _) fun _ => .pure _
    · split
      · exact .bind (.remember _) fun _ => relaxes_inputNode _ _ _
      · exact ctx.relaxes_freeName name span

/-- The class that a path starts with does not depend on the settings. -/
theorem qualified?_under (a : AnalysisState) (s : Strictness) (e : Syntax.Expr) :
    ctx.qualified? (a.under s) e = ctx.qualified? a e := by
  have prefix_eq (path : List String) (length : Nat) :
      ctx.classPrefix? (a.under s).env path length = ctx.classPrefix? a.env path length := by
    induction length with
    | zero => rfl
    | succ length ih =>
      unfold classPrefix?
      rw [ih]
      rfl
  unfold qualified?
  simp only [prefix_eq]
  rfl

/-! ## Members and calls -/

theorem relaxes_dynamicMember (receiver : Ty) (member : String) (span : Span) :
    Relaxes (ctx.dynamicMember receiver member span) := by
  unfold dynamicMember
  exact .rejectsDynamic (.pure _) (Or.inr (.fail _ _))

theorem relaxes_propertyType (receiver : Ty) (name : String) (span : Span) :
    Relaxes (ctx.propertyType receiver name span) := by
  unfold propertyType
  split
  · exact ctx.relaxes_dynamicMember receiver name span
  · exact ctx.relaxes_dynamicMember receiver name span
  · exact .pure _
  · split
    · exact .pure _
    · split
      · exact .pure _
      · exact .strong (.pure _) (Or.inr (.fail _ _))

theorem relaxes_property (receiver : Expr) (name : String) (span : Span) :
    Relaxes (ctx.property receiver name span) := by
  unfold property
  dsimp only
  split
  · exact .bind (.remember _) fun _ => .pure _
  · refine .bind (ctx.relaxes_propertyType _ name span) fun type => ?_
    exact .bind (.remember _) fun _ => .bind .newSite fun _ => .pure _

theorem relaxes_propertyChain (span : Span) (e : Expr) (names : List String) :
    Relaxes (ctx.propertyChain span e names) := by
  induction names generalizing e with
  | nil => exact .pure _
  | cons name names ih =>
    unfold propertyChain
    exact .bind (ctx.relaxes_property e name span) fun e => ih e

theorem relaxes_overloadType (owner : Ty) (candidates : List Method) (name : String) (args : List Ty)
    (span : Span) : Relaxes (ctx.overloadType owner candidates name args span) := by
  unfold overloadType
  dsimp only
  split
  · exact .pure _
  · exact .pure _
  · exact .fail _ _
  · exact .fail _ _

theorem relaxes_memberCallType (receiver : Ty) (name : String) (args : List Ty) (span : Span) :
    Relaxes (ctx.memberCallType receiver name args span) := by
  unfold memberCallType
  split
  · exact ctx.relaxes_dynamicMember receiver name span
  · split
    · exact .strong (.pure _) (Or.inr (.fail _ _))
    · exact ctx.relaxes_overloadType receiver _ name args span

theorem relaxes_callType (receiver : Expr) (name : String) (args : List Ty) (span : Span) :
    Relaxes (ctx.callType receiver name args span) := by
  unfold callType
  split
  · split
    · exact ctx.relaxes_memberCallType _ name args span
    · exact ctx.relaxes_overloadType _ _ name args span
  · exact ctx.relaxes_memberCallType _ name args span

theorem relaxes_methodCall (receiver : Expr) (name : String) (args : List Expr) (span : Span) :
    Relaxes (ctx.methodCall receiver name args span) := by
  unfold methodCall
  refine .bind (ctx.relaxes_callType receiver name _ span) fun type => ?_
  exact .bind (.remember _) fun _ => .bind .newSite fun _ => .pure _

theorem relaxes_callFunction (name : String) (args : List Expr) (span : Span) :
    Relaxes (ctx.callFunction name args span) := by
  unfold callFunction
  refine .ask (fun _ => rfl) (fun env => ?_) fun _ _ _ => Or.inl rfl
  split
  · dsimp only
    split
    · exact .fail _ _
    · exact .pure _
  · exact ctx.relaxes_methodCall _ name args span

theorem relaxes_callNamed (name : String) (args : List Expr) (span : Span) :
    Relaxes (ctx.callNamed name args span) := by
  unfold callNamed
  split
  · exact .pure _
  · exact ctx.relaxes_callFunction name args span

theorem relaxes_indexType (receiver : Ty) (span : Span) : Relaxes (ctx.indexType receiver span) := by
  unfold indexType
  split
  · exact .pure _
  · exact .pure _
  · exact .pure _
  · exact ctx.relaxes_dynamicMember receiver "[]" span
  · exact ctx.relaxes_dynamicMember receiver "[]" span
  · exact .fail _ _

theorem relaxes_index (receiver position : Expr) (span : Span) : Relaxes (ctx.index receiver position span) := by
  unfold index
  refine .bind (ctx.relaxes_indexType _ span) fun type => ?_
  exact .bind (.remember _) fun _ => .bind .newSite fun _ => .pure _

theorem relaxes_iteratedType (items : Expr) : Relaxes (ctx.iteratedType items) := by
  unfold iteratedType
  split
  · exact .pure _
  · exact .pure _
  · exact .pure _
  · exact .pure _
  · exact .pure _
  · exact .pure _
  · exact .fail _ _

theorem relaxes_chosenConstructor (type : Ty) (args : List Ty) (span : Span) :
    Relaxes (ctx.chosenConstructor type args span) := by
  unfold chosenConstructor
  dsimp only
  split
  · exact .pure _
  · split
    · exact .pure _
    · exact .pure _
    · exact .fail _ _
    · exact .fail _ _

theorem relaxes_construct (type : Ty) (args : List Expr) (span : Span) :
    Relaxes (ctx.construct type args span) := by
  unfold construct
  refine .bind (ctx.relaxes_chosenConstructor type _ span) fun chosen => ?_
  exact .bind (.remember _) fun _ => .pure _

/-! ## Operators -/

theorem relaxes_arithType (op : ArithOp) (left right : Ty) (span : Span) :
    Relaxes (ctx.arithType op left right span) := by
  unfold arithType
  split
  · exact .pure _
  · split
    · exact .pure _
    · refine .strong ?_ ?_
      · simp only [Bool.not_false, Bool.or_true, if_true]
        exact .pure _
      · simp only [Bool.not_false, Bool.not_true, Bool.or_true, Bool.or_false, if_true]
        split
        · exact Or.inl rfl
        · exact Or.inr (.fail _ _)

theorem relaxes_checkComparison (op : CompareOp) (left right : Ty) (span : Span) :
    Relaxes (ctx.checkComparison op left right span) := by
  unfold checkComparison
  refine .strong ?_ ?_
  · simp only [Bool.and_false]
    exact .pure _
  · simp only [Bool.and_true, Bool.and_false]
    split
    · exact Or.inr (.fail _ _)
    · exact Or.inl rfl

theorem relaxes_unaryType (op : UnaryOp) (operand : Ty) (span : Span) :
    Relaxes (ctx.unaryType op operand span) := by
  unfold unaryType
  split
  · exact .pure _
  · split
    · exact .pure _
    · refine .strong ?_ ?_
      · simp only [Bool.not_false, Bool.or_true, if_true]
        exact .pure _
      · simp only [Bool.not_false, Bool.not_true, Bool.or_true, Bool.or_false, if_true]
        split
        · exact Or.inl rfl
        · exact Or.inr (.fail _ _)

theorem relaxes_checkCondition (cond : Expr) : Relaxes (ctx.checkCondition cond) := by
  unfold checkCondition
  split
  · exact .pure _
  · exact ctx.relaxes_checkCoercion _ _ _

theorem relaxes_checkCast (source target : Ty) (span : Span) : Relaxes (ctx.checkCast source target span) := by
  unfold checkCast
  split
  · exact .pure _
  · exact ctx.relaxes_checkCoercion _ _ _

theorem relaxes_checkLength (length : Expr) : Relaxes (ctx.checkLength length) := by
  unfold checkLength
  split
  · exact .pure _
  · exact ctx.relaxes_checkCoercion _ _ _

theorem relaxes_inlineList (items : List Expr) (span : Span) : Relaxes (ctx.inlineList items span) :=
  .bind (.remember _) fun _ => .pure _

theorem relaxes_inlineMap (entries : List (Expr × Expr)) (span : Span) : Relaxes (ctx.inlineMap entries span) :=
  .bind (.remember _) fun _ => .pure _

/-! ## Assignment -/

theorem relaxes_checkAssignable (target : Expr) (span : Span) : Relaxes (ctx.checkAssignable target span) := by
  unfold checkAssignable
  split
  · exact .pure _
  · exact .fail _ _

theorem relaxes_checkWritable (target : Expr) (span : Span) : Relaxes (ctx.checkWritable target span) := by
  unfold checkWritable
  split
  · refine .strong ?_ ?_
    · simp only [Bool.and_false]
      exact .pure _
    · simp only [Bool.and_true, Bool.and_false]
      split
      · exact Or.inr (.fail _ _)
      · exact Or.inl rfl
  · exact .pure _

theorem relaxes_assignedName (name : String) (span : Span) (value : Ty) :
    Relaxes (ctx.assignedName name span value) := by
  unfold assignedName
  refine .ask (fun _ => rfl) (fun s => ?_) fun _ _ _ => Or.inl rfl
  split
  · exact .pure _
  · split
    · exact .pure _
    · split
      · exact .bind (relaxes_inputNode _ _ _) fun _ => .pure _
      · split
        · refine .bind (ctx.relaxes_ident name span) fun target => ?_
          exact .bind (ctx.relaxes_checkAssignable target _) fun _ => .pure _
        · exact .bind (.modifyEnv (.declare _ _)) fun _ => .pure _

theorem relaxes_checkedTarget {analyzed : Analysis Expr} (h : Relaxes analyzed) (span : Span) :
    Relaxes (ctx.checkedTarget analyzed span) := by
  unfold checkedTarget
  refine .bind h fun node => ?_
  refine .bind (ctx.relaxes_checkWritable node span) fun _ => ?_
  exact .bind (ctx.relaxes_checkAssignable node _) fun _ => .pure _

theorem relaxes_assignedTarget (target : Syntax.Expr) {analyzed : Analysis Expr} (h : Relaxes analyzed)
    (value : Ty) : Relaxes (ctx.assignedTarget target analyzed value) := by
  obtain ⟨span, name, rfl⟩ | read | refused := assignedTarget_cases target
  · exact ctx.relaxes_assignedName name span value
  · rw [read]
    exact ctx.relaxes_checkedTarget h _
  · rw [refused]
    exact .fail _ _

theorem relaxes_plainAssignment (value target : Expr) (stored : Option Ty) (span : Span) :
    Relaxes (ctx.plainAssignment value target stored span) := by
  unfold plainAssignment
  cases stored with
  | none => exact .pure _
  | some type => exact .bind (ctx.relaxes_checkCoercion _ _ _) fun _ => .pure _

theorem relaxes_compoundAssignment (op : ArithOp) (target value : Expr) (span : Span) :
    Relaxes (ctx.compoundAssignment op target value span) := by
  unfold compoundAssignment
  refine .bind (ctx.relaxes_checkAssignable target _) fun _ => ?_
  refine .bind (ctx.relaxes_arithType op _ _ span) fun result => ?_
  cases storedType? target.type with
  | none => exact .pure _
  | some type => exact .bind (ctx.relaxes_checkCoercion _ _ _) fun _ => .pure _

theorem relaxes_stepNode (op : StepOp) (target : Expr) (span : Span) : Relaxes (ctx.stepNode op target span) := by
  unfold stepNode
  refine .bind (ctx.relaxes_checkAssignable target span) fun _ => ?_
  refine .strong ?_ ?_
  · simp only [Bool.and_false]
    exact .pure _
  · simp only [Bool.and_true, Bool.and_false]
    split
    · exact Or.inr (.fail _ _)
    · exact Or.inl rfl

/-! ## Expressions -/

mutual

/-- The analysis of an expression. -/
theorem relaxes_expr (e : Syntax.Expr) (hint : Option Ty) : Relaxes (ctx.expr e hint) := by
  -- by recursion on the expression: every step either ignores the strictness or, where it is asked, fails when strict
  cases e with
  | literal span value =>
    unfold expr
    exact .pure _
  | ident span name =>
    unfold expr
    exact ctx.relaxes_ident name span
  | field span receiver name =>
    unfold expr
    -- the state is read here, but what a qualified name means does not depend on the strictness
    refine .ask (fun _ => rfl) (fun s => ?_) fun a s _ => ?_
    · split
      · exact ctx.relaxes_propertyChain span _ _
      · exact .bind (relaxes_expr receiver none) fun e => ctx.relaxes_property e name span
    · rw [qualified?_under]
      exact Or.inl rfl
  | methodCall span receiver name args =>
    unfold expr
    refine .bind (relaxes_expr receiver none) fun receiver => ?_
    exact .bind (relaxes_exprs args) fun args => ctx.relaxes_methodCall receiver name args span
  | call span name args =>
    unfold expr
    exact .bind (relaxes_exprs args) fun args => ctx.relaxes_callNamed name args span
  | index span receiver position =>
    unfold expr
    refine .bind (relaxes_expr receiver none) fun receiver => ?_
    exact .bind (relaxes_expr position none) fun position => ctx.relaxes_index receiver position span
  | assign span target op value =>
    cases op with
    | plain =>
      unfold expr
      refine .bind (relaxes_expr value none) fun value => ?_
      refine .bind (ctx.relaxes_assignedTarget target (relaxes_expr target none) _) fun r => ?_
      exact ctx.relaxes_plainAssignment value r.1 r.2 span
    | compound op =>
      unfold expr
      refine .bind (relaxes_expr target none) fun target => ?_
      exact .bind (relaxes_expr value none) fun value => ctx.relaxes_compoundAssignment op target value span
  | arith span op left right =>
    unfold expr
    refine .bind (relaxes_expr left none) fun left => ?_
    refine .bind (relaxes_expr right none) fun right => ?_
    exact .bind (ctx.relaxes_arithType op _ _ span) fun _ => .pure _
  | logic span op left right =>
    unfold expr
    refine .bind (relaxes_expr left none) fun left => ?_
    refine .bind (ctx.relaxes_checkCondition left) fun _ => ?_
    refine .bind (relaxes_expr right none) fun right => ?_
    exact .bind (ctx.relaxes_checkCondition right) fun _ => .pure _
  | compare span op left right =>
    unfold expr
    refine .bind (relaxes_expr left none) fun left => ?_
    refine .bind (relaxes_expr right none) fun right => ?_
    exact .bind (ctx.relaxes_checkComparison op _ _ span) fun _ => .pure _
  | unary span op operand =>
    unfold expr
    refine .bind (relaxes_expr operand none) fun operand => ?_
    have node : Relaxes (do
        let type ← ctx.unaryType op operand.type span
        return Expr.unary ⟨type, span⟩ op operand) :=
      .bind (ctx.relaxes_unaryType op _ span) fun _ => .pure _
    cases op with
    | not => exact .bind (ctx.relaxes_checkCondition operand) fun _ => node
    | neg => exact node
  | step span op target =>
    unfold expr
    exact .bind (relaxes_expr target none) fun target => ctx.relaxes_stepNode op target span
  | cast span type operand =>
    unfold expr
    refine .bind (ctx.relaxes_resolveType type) fun type => ?_
    refine .bind (relaxes_expr operand (some type)) fun operand => ?_
    exact .bind (ctx.relaxes_checkCast _ type span) fun _ => .pure _
  | conditional span cond thenBranch elseBranch =>
    unfold expr
    refine .bind (relaxes_expr cond none) fun cond => ?_
    refine .bind (ctx.relaxes_checkCondition cond) fun _ => ?_
    refine .bind (relaxes_expr thenBranch hint) fun a => ?_
    exact .bind (relaxes_expr elseBranch hint) fun b => .pure _
  | construct span type args =>
    unfold expr
    refine .bind (ctx.relaxes_resolveType type) fun type => ?_
    exact .bind (relaxes_exprs args) fun args => ctx.relaxes_construct type args span
  | newArray span type items =>
    unfold expr
    refine .bind (ctx.relaxes_resolveType type) fun type => ?_
    exact .bind (relaxes_arrayItems _ items) fun _ => .pure _
  | newSized span type length =>
    unfold expr
    refine .bind (ctx.relaxes_resolveType type) fun item => ?_
    refine .bind (relaxes_expr length none) fun length => ?_
    exact .bind (ctx.relaxes_checkLength length) fun _ => .pure _
  | inlineArray span items =>
    unfold expr
    split
    · exact .bind (relaxes_arrayItems _ items) fun _ => .pure _
    · exact .bind (relaxes_exprs items) fun _ => .pure _
  | inlineList span items =>
    unfold expr
    exact .bind (relaxes_exprs items) fun items => ctx.relaxes_inlineList items span
  | inlineMap span entries =>
    unfold expr
    exact .bind (relaxes_exprEntries entries) fun entries => ctx.relaxes_inlineMap entries span
termination_by sizeOf e

theorem relaxes_exprs (es : List Syntax.Expr) : Relaxes (ctx.exprs es) := by
  cases es with
  | nil =>
    unfold exprs
    exact .pure _
  | cons e es =>
    unfold exprs
    exact .bind (relaxes_expr e none) fun _ => .bind (relaxes_exprs es) fun _ => .pure _
termination_by sizeOf es

theorem relaxes_arrayItems (item : Ty) (es : List Syntax.Expr) : Relaxes (ctx.arrayItems item es) := by
  cases es with
  | nil =>
    unfold arrayItems
    exact .pure _
  | cons e es =>
    unfold arrayItems
    refine .bind (relaxes_expr e (some item)) fun e => ?_
    refine .bind (ctx.relaxes_checkCoercion _ item _) fun _ => ?_
    exact .bind (relaxes_arrayItems item es) fun _ => .pure _
termination_by sizeOf es

theorem relaxes_exprEntries (es : List (Syntax.Expr × Syntax.Expr)) : Relaxes (ctx.exprEntries es) := by
  match es with
  | [] =>
    unfold exprEntries
    exact .pure _
  | (key, value) :: rest =>
    unfold exprEntries
    refine .bind (relaxes_expr key none) fun key => ?_
    refine .bind (relaxes_expr value none) fun value => ?_
    exact .bind (relaxes_exprEntries rest) fun _ => .pure _
termination_by sizeOf es

end

/-! ## Parts of statements -/

theorem relaxes_importPackage (package : String) (span : Span) : Relaxes (ctx.importPackage package span) := by
  unfold importPackage
  split
  · exact .fail _ _
  · exact .modifyEnv (.foldl (fun _ => .addImport _ _) _)

theorem relaxes_importClass (path : String) (span : Span) : Relaxes (ctx.importClass path span) := by
  unfold importClass
  split
  · exact .modifyEnv (.addImport _ _)
  · exact .fail _ _

theorem relaxes_expr? (e : Option Syntax.Expr) (hint : Option Ty) : Relaxes (ctx.expr? e hint) := by
  cases e with
  | none => exact .pure _
  | some e => exact .map _ (ctx.relaxes_expr e hint)

theorem relaxes_condition (e : Syntax.Expr) : Relaxes (ctx.condition e) := by
  unfold condition
  refine .bind (ctx.relaxes_expr e none) fun cond => ?_
  exact .bind (ctx.relaxes_checkCondition cond) fun _ => .pure _

theorem relaxes_condition? (e : Option Syntax.Expr) : Relaxes (ctx.condition? e) := by
  cases e with
  | none => exact .pure _
  | some e => exact .map _ (ctx.relaxes_condition e)

theorem relaxes_declareName (name : String) (type : Ty) : Relaxes (declareName name type) := by
  unfold declareName
  refine .ask (fun _ => rfl) (fun s => ?_) fun _ _ _ => Or.inl rfl
  split
  · exact .bind (.modifyEnv (.declare _ _)) fun _ => .pure _
  · exact .bind (.declareInBlock _ _) fun _ => .pure _

theorem relaxes_checkInitial (declared : Option Ty) (init : Option Expr) :
    Relaxes (ctx.checkInitial declared init) := by
  unfold checkInitial
  split
  · exact ctx.relaxes_checkCoercion _ _ _
  · exact .pure _

theorem relaxes_declarator (declared : Option Ty) (d : Syntax.Declarator) :
    Relaxes (ctx.declarator declared d) := by
  rw [declarator_eq]
  refine .bind (ctx.relaxes_expr? d.init declared) fun init => ?_
  refine .bind (ctx.relaxes_checkInitial declared init) fun _ => .bind (relaxes_declareName _ _) fun _ => ?_
  exact .bind (.remember _) fun _ => .pure _

theorem relaxes_declarators (declared : Option Ty) (ds : List Syntax.Declarator) :
    Relaxes (ctx.declarators declared ds) := by
  induction ds with
  | nil =>
    unfold declarators
    exact .pure _
  | cons d ds ih =>
    unfold declarators
    exact .bind (ctx.relaxes_declarator declared d) fun _ => .bind ih fun _ => .pure _

theorem relaxes_returned (value : Option Syntax.Expr) : Relaxes (ctx.returned value) := by
  unfold returned
  refine .bind (ctx.relaxes_expr? value none) fun value => ?_
  refine .bind ?_ fun _ => .pure _
  rintro a b r ⟨⟩
  exact ⟨rfl, fun _ _ => rfl⟩

/-! ## Statements -/

/-- A `for` statement behind its start. -/
theorem relaxes_loopParts (init : Option Stmt) {cond : Option Syntax.Expr} {update : List Syntax.Expr}
    {body : List Syntax.Stmt} (row : Relaxes (ctx.stmts body)) : Relaxes (ctx.loopParts init cond update body) := by
  unfold loopParts
  refine .bind (ctx.relaxes_condition? cond) fun cond => .bind (ctx.relaxes_exprs update) fun update => ?_
  exact .bind (.inBlock row) fun _ => .pure _

mutual

/-- The analysis of a statement. -/
theorem relaxes_stmt (s : Syntax.Stmt) : Relaxes (ctx.stmt s) := by
  cases s with
  | expr e =>
    unfold stmt
    exact .bind (ctx.relaxes_expr e none) fun _ => .pure _
  | declare type ds =>
    unfold stmt
    exact .bind (ctx.relaxes_resolveType? type) fun declared => ctx.relaxes_declarators declared ds
  | branch cond thenBody elseBody =>
    unfold stmt
    refine .bind (ctx.relaxes_condition cond) fun cond => ?_
    refine .bind (.inBlock (relaxes_stmts thenBody)) fun thenBody => ?_
    cases elseBody with
    | none => exact .bind (.pure _) fun _ => .pure _
    | some body => exact .bind (.map _ (.inBlock (relaxes_stmts body))) fun _ => .pure _
  | whileLoop cond body =>
    unfold stmt
    refine .bind (ctx.relaxes_condition cond) fun cond => ?_
    exact .bind (.inBlock (relaxes_stmts body)) fun _ => .pure _
  | forLoop init cond update body =>
    cases init with
    | none =>
      rw [stmt_forLoop_none]
      exact .inBlock (ctx.relaxes_loopParts none (relaxes_stmts body))
    | some s =>
      rw [stmt_forLoop_some]
      exact .inBlock (.bind (relaxes_stmt s) fun ss => ctx.relaxes_loopParts (some (single ss)) (relaxes_stmts body))
  | forEach type name span items body =>
    unfold stmt
    refine .bind (ctx.relaxes_resolveType? type) fun declared => ?_
    refine .bind (ctx.relaxes_expr items none) fun items => ?_
    refine .bind (ctx.relaxes_iteratedType items) fun item => ?_
    refine .inBlock (.bind (.declareInBlock _ _) fun _ => ?_)
    exact .bind (.inBlock (relaxes_stmts body)) fun _ => .pure _
  | block body =>
    unfold stmt
    exact .bind (.inBlock (relaxes_stmts body)) fun _ => .pure _
  | returns value =>
    unfold stmt
    exact .bind (ctx.relaxes_returned value) fun _ => .pure _
  | importPath path everything span =>
    unfold stmt
    cases everything with
    | true => exact .bind (ctx.relaxes_importPackage path span) fun _ => .pure _
    | false => exact .bind (ctx.relaxes_importClass path span) fun _ => .pure _
termination_by sizeOf s

/-- The analysis of statements in a row. -/
theorem relaxes_stmts (ss : List Syntax.Stmt) : Relaxes (ctx.stmts ss) := by
  cases ss with
  | nil =>
    unfold stmts
    exact .pure _
  | cons s ss =>
    unfold stmts
    exact .bind (relaxes_stmt s) fun _ => .bind (relaxes_stmts ss) fun _ => .pure _
termination_by sizeOf ss

end

/-! ## Programs and setters -/

theorem relaxes_program (body : List Syntax.Stmt) : Relaxes (ctx.program body) := by
  unfold program
  refine .bind (ctx.relaxes_stmts body) fun body => ?_
  exact .ask (fun _ => rfl) (fun _ => .pure _) fun _ _ _ => Or.inl rfl

theorem relaxes_setter (body : List Syntax.Stmt) : Relaxes (ctx.setter body) := by
  unfold setter
  split
  · rename_i target
    refine .bind (ctx.relaxes_assignedTarget target (ctx.relaxes_expr target none) _) fun r => ?_
    exact .ask (fun _ => rfl) (fun _ => .pure _) fun _ _ _ => Or.inl rfl
  · exact .fail _ _

/-- **Strictness is a filter.** If the analysis of a program or a setter succeeds under some settings, it succeeds under
all settings that ask for no more, with the same typed program and, but for the settings, the same environment. -/
theorem analyze_under_of_within (setter : Bool) (body : List Syntax.Stmt) (env : Environment) {s t : Strictness}
    (looser : s.Within t) {p : Program} {env' : Environment}
    (accepted : ctx.analyze setter body (env.under t) = (.ok p, env')) :
    env'.strictness = t ∧ ctx.analyze setter body (env.under s) = (.ok p, env'.under s) := by
  have relaxes : Relaxes (if setter then ctx.setter body else ctx.program body) := by
    split
    · exact ctx.relaxes_setter body
    · exact ctx.relaxes_program body
  obtain ⟨given, rfl⟩ := Prod.mk.inj accepted
  obtain ⟨kept, same⟩ := relaxes (.ofEnvironment (env.under t)) _ p (Prod.ext given rfl)
  refine ⟨kept, ?_⟩
  have loose := same s looser
  unfold analyze
  exact congrArg (fun result => (result.1, result.2.env)) loose

end Context

/-! ## A program that the strictest settings accept -/

/-- A program on a map from texts to numbers. -/
def stockCount : String :=
  "int total = stock['tea'] + 1; for (int i = 0; i < total; i++) { total -= i; } String s = 'left: ' + total; s"

/-- The environment of the program, where everything that can be rejected is. -/
def stockEnvironment : Environment :=
  .ofConfig { Config.default with strong := true, strict := true, inputs := [("stock", .mapOf .string .integer)] }

/-- What the analysis makes of the program it also makes of it without strictness. -/
theorem analyze_under_of_within_stockCount :
    ∃ (ctx : Context) (body : List Syntax.Stmt) (p : Typed.Program) (env' : Environment),
      Syntax.parse stockCount = .ok body
      ∧ ctx.analyze false body (stockEnvironment.under ⟨true, true⟩) = (.ok p, env')
      ∧ ctx.analyze false body (stockEnvironment.under ⟨false, false⟩) = (.ok p, env'.under ⟨false, false⟩) := by
  let ctx : Context := ⟨.bare, .builtin, [], stockCount.toList⟩
  have found : (Syntax.parse stockCount).toOption.any fun body =>
      (ctx.analyze false body (stockEnvironment.under ⟨true, true⟩)).1.toOption.any fun _ => true := by
    decide +kernel
  obtain ⟨body, parsed, analyzed⟩ := exists_ok_of_any found
  obtain ⟨p, accepted, -⟩ := exists_ok_of_any analyzed
  have strict : ctx.analyze false body (stockEnvironment.under ⟨true, true⟩) = (.ok p, _) := Prod.ext accepted rfl
  have looser : Strictness.Within ⟨false, false⟩ ⟨true, true⟩ := ⟨fun _ => rfl, fun _ => rfl⟩
  exact ⟨ctx, body, p, _, parsed, strict, (ctx.analyze_under_of_within false body stockEnvironment looser strict).2⟩

end HostExpr
