import HostExpr.Typing.Stmt

/-!
# Steps that only look at the environment

The parts of an analysis that find out a type or reject something leave the state of the analysis as it is. What
changes the state are the steps that make nodes and the declarations.
-/

namespace HostExpr

namespace Analysis

variable {α β : Type}

/-- The step leaves the state as it is, whatever comes of it. -/
def Checks (step : Analysis α) : Prop := ∀ a, (step a).2 = a

/-- The step asks for the environment alone: it leaves the state as it is, and what comes of it depends on nothing
else. -/
structure Asks (step : Analysis α) : Prop where
  checks : Checks step
  outcome_eq : ∀ a b, a.env = b.env → (step a).1 = (step b).1

namespace Asks

/-- The state behind a step that came to something. -/
theorem eq_of_ok {x : Analysis α} (hx : Asks x) {a b : AnalysisState} {r : α} (h : x a = (.ok r, b)) : b = a := by
  have := hx.checks a
  rwa [h] at this

theorem pure (r : α) : Asks (Pure.pure r) := ⟨fun _ => rfl, fun _ _ _ => rfl⟩

theorem fail (cause : CompileCause) (span : Span) : Asks (Analysis.fail cause span : Analysis α) :=
  ⟨fun _ => rfl, fun _ _ _ => rfl⟩

theorem env : Asks Analysis.env := ⟨fun _ => rfl, fun _ _ same => congrArg Except.ok same⟩

/-- One step after the other. -/
theorem bind {x : Analysis α} {f : α → Analysis β} (hx : Asks x) (hf : ∀ r, Asks (f r)) : Asks (x >>= f) where
  checks a := by
    rw [bind_eq_bindCont, hx.checks a]
    cases (x a).1 with
    | ok r => exact (hf r).checks a
    | error e => rfl
  outcome_eq a b same := by
    rw [bind_eq_bindCont, bind_eq_bindCont, hx.checks a, hx.checks b, hx.outcome_eq a b same]
    cases (x b).1 with
    | ok r => exact (hf r).outcome_eq a b same
    | error e => rfl

theorem strong : Asks Analysis.strong := env.bind fun env => .pure env.strong

theorem rejectsDynamic : Asks Analysis.rejectsDynamic := env.bind fun env => .pure (env.strong && env.strict)

theorem map {x : Analysis α} (f : α → β) (hx : Asks x) : Asks (f <$> x) := hx.bind fun r => .pure (f r)

theorem ite {c : Prop} [Decidable c] {x y : Analysis α} (hx : Asks x) (hy : Asks y) : Asks (if c then x else y) := by
  split
  · exact hx
  · exact hy

end Asks

end Analysis

namespace Context

open Typed Analysis

variable (ctx : Context)

mutual

theorem asks_resolveType (t : Syntax.TypeExpr) : Asks (ctx.resolveType t) := by
  obtain ⟨path, args, dims, span⟩ := t
  unfold resolveType
  refine .bind .env fun env => ?_
  split
  · exact .fail _ _
  · exact .bind (asks_resolveTypes args) fun _ => .pure _

theorem asks_resolveTypes (ts : List Syntax.TypeExpr) : Asks (ctx.resolveTypes ts) := by
  cases ts with
  | nil =>
    unfold resolveTypes
    exact .pure _
  | cons t ts =>
    unfold resolveTypes
    exact .bind (asks_resolveType t) fun _ => .bind (asks_resolveTypes ts) fun _ => .pure _

end

theorem asks_resolveType? (t : Option Syntax.TypeExpr) : Asks (ctx.resolveType? t) := by
  cases t with
  | none => exact .pure _
  | some t => exact .map _ (ctx.asks_resolveType t)

theorem asks_checkCoercion (source target : Ty) (span : Span) : Asks (ctx.checkCoercion source target span) := by
  unfold checkCoercion
  exact .bind .strong fun _ => .ite (.fail _ _) (.pure _)

theorem asks_checkInitial (declared : Option Ty) (init : Option Expr) : Asks (ctx.checkInitial declared init) := by
  unfold checkInitial
  split
  · exact ctx.asks_checkCoercion _ _ _
  · exact .pure _

/-! ## Members and calls -/

theorem asks_dynamicMember (receiver : Ty) (member : String) (span : Span) :
    Asks (ctx.dynamicMember receiver member span) := by
  unfold dynamicMember
  exact .bind .rejectsDynamic fun _ => .ite (.fail _ _) (.pure _)

theorem asks_propertyType (receiver : Ty) (name : String) (span : Span) :
    Asks (ctx.propertyType receiver name span) := by
  unfold propertyType
  split
  · exact ctx.asks_dynamicMember receiver name span
  · exact ctx.asks_dynamicMember receiver name span
  · exact .pure _
  · split
    · exact .pure _
    · split
      · exact .pure _
      · exact .bind .strong fun _ => .ite (.fail _ _) (.pure _)

theorem asks_overloadType (owner : Ty) (candidates : List Method) (name : String) (args : List Ty) (span : Span) :
    Asks (ctx.overloadType owner candidates name args span) := by
  unfold overloadType
  dsimp only
  split
  · exact .pure _
  · exact .pure _
  · exact .fail _ _
  · exact .fail _ _

theorem asks_memberCallType (receiver : Ty) (name : String) (args : List Ty) (span : Span) :
    Asks (ctx.memberCallType receiver name args span) := by
  unfold memberCallType
  split
  · exact ctx.asks_dynamicMember receiver name span
  · split
    · exact .bind .strong fun _ => .ite (.fail _ _) (.pure _)
    · exact ctx.asks_overloadType receiver _ name args span

theorem asks_callType (receiver : Expr) (name : String) (args : List Ty) (span : Span) :
    Asks (ctx.callType receiver name args span) := by
  unfold callType
  split
  · split
    · exact ctx.asks_memberCallType _ name args span
    · exact ctx.asks_overloadType _ _ name args span
  · exact ctx.asks_memberCallType _ name args span

theorem asks_indexType (receiver : Ty) (span : Span) : Asks (ctx.indexType receiver span) := by
  unfold indexType
  split
  · exact .pure _
  · exact .pure _
  · exact .pure _
  · exact ctx.asks_dynamicMember receiver "[]" span
  · exact ctx.asks_dynamicMember receiver "[]" span
  · exact .fail _ _

theorem asks_iteratedType (items : Expr) : Asks (ctx.iteratedType items) := by
  unfold iteratedType
  split <;> first | exact .pure _ | exact .fail _ _

theorem asks_chosenConstructor (type : Ty) (args : List Ty) (span : Span) :
    Asks (ctx.chosenConstructor type args span) := by
  unfold chosenConstructor
  dsimp only
  split
  · exact .pure _
  · split
    · exact .pure _
    · exact .pure _
    · exact .fail _ _
    · exact .fail _ _

/-! ## Operators and assignments -/

theorem asks_arithType (op : ArithOp) (left right : Ty) (span : Span) :
    Asks (ctx.arithType op left right span) := by
  unfold arithType
  split
  · exact .pure _
  · split
    · exact .pure _
    · exact .bind .strong fun _ => .ite (.pure _) (.fail _ _)

theorem asks_checkComparison (op : CompareOp) (left right : Ty) (span : Span) :
    Asks (ctx.checkComparison op left right span) := by
  unfold checkComparison
  exact .bind .strong fun _ => .ite (.fail _ _) (.pure _)

theorem asks_unaryType (op : UnaryOp) (operand : Ty) (span : Span) : Asks (ctx.unaryType op operand span) := by
  unfold unaryType
  split
  · exact .pure _
  · split
    · exact .pure _
    · exact .bind .strong fun _ => .ite (.pure _) (.fail _ _)

theorem asks_checkCondition (cond : Expr) : Asks (ctx.checkCondition cond) := by
  unfold checkCondition
  exact .ite (.pure _) (ctx.asks_checkCoercion _ _ _)

theorem asks_checkCast (source target : Ty) (span : Span) : Asks (ctx.checkCast source target span) := by
  unfold checkCast
  exact .ite (.pure _) (ctx.asks_checkCoercion _ _ _)

theorem asks_checkLength (length : Expr) : Asks (ctx.checkLength length) := by
  unfold checkLength
  exact .ite (.pure _) (ctx.asks_checkCoercion _ _ _)

theorem asks_checkAssignable (target : Expr) (span : Span) : Asks (ctx.checkAssignable target span) := by
  unfold checkAssignable
  exact .ite (.pure _) (.fail _ _)

theorem asks_checkWritable (target : Expr) (span : Span) : Asks (ctx.checkWritable target span) := by
  unfold checkWritable
  split
  · exact .bind .strong fun _ => .ite (.fail _ _) (.pure _)
  · exact .pure _

theorem asks_plainAssignment (value target : Expr) (stored : Option Ty) (span : Span) :
    Asks (ctx.plainAssignment value target stored span) := by
  unfold plainAssignment
  cases stored with
  | none => exact .pure _
  | some type => exact .bind (ctx.asks_checkCoercion _ _ _) fun _ => .pure _

theorem asks_compoundAssignment (op : ArithOp) (target value : Expr) (span : Span) :
    Asks (ctx.compoundAssignment op target value span) := by
  unfold compoundAssignment
  refine .bind (ctx.asks_checkAssignable target _) fun _ => ?_
  refine .bind (ctx.asks_arithType op _ _ span) fun result => ?_
  cases storedType? target.type with
  | none => exact .pure _
  | some type => exact .bind (ctx.asks_checkCoercion _ _ _) fun _ => .pure _

theorem asks_stepNode (op : StepOp) (target : Expr) (span : Span) : Asks (ctx.stepNode op target span) := by
  unfold stepNode
  refine .bind (ctx.asks_checkAssignable target span) fun _ => ?_
  exact .bind .strong fun strong => .ite (.bind (.fail _ _) fun _ => .pure _) (.pure _)

end Context

end HostExpr
