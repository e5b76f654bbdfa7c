import HostExpr.Proofs.Typing.Checks
import HostExpr.Proofs.Typing.Shifted

/-!
# Counting call sites from a later number

What a step of an analysis makes it also makes where the count of call sites stands higher: the same but for the
numbers. `Shifts` says so of a step and the one beside it, which may be given operands with other numbers, and says what
is known of the tree that is made: it has no name that the source does not have. The text that the source stands in
makes no difference: it is looked at for the messages of errors only.
-/

namespace HostExpr

open Typed

/-- The state with a higher number for the next call site. -/
def AnalysisState.shifted (k : Nat) (a : AnalysisState) : AnalysisState := { a with nextSite := a.nextSite + k }

namespace Analysis

variable {α β : Type}

/-- What the first step gives has a property, and the second one gives it shifted where the count stands higher. -/
def Shifts (k : Nat) (shift : α → α) (Q : α → Prop) (x x' : Analysis α) : Prop :=
  ∀ a b r, x a = (.ok r, b) → Q r ∧ x' (a.shifted k) = (.ok (shift r), b.shifted k)

/-- The step does not look at numbers and takes none. -/
abbrev Unnumbered (k : Nat) (x : Analysis α) : Prop := Shifts k id (fun _ => True) x x

namespace Shifts

variable {k : Nat} {shift : α → α} {Q : α → Prop} {shift' : β → β} {R : β → Prop}

theorem pure {r : α} (h : Q r) : Shifts k shift Q (Pure.pure r) (Pure.pure (shift r)) := by
  rintro a b q ⟨⟩
  exact ⟨h, rfl⟩

theorem of_fails {x x' : Analysis α} (h : Fails x) : Shifts k shift Q x x' := fun a b r hx => absurd hx (h a b r)

theorem fail (cause : CompileCause) (span : Span) (x' : Analysis α) :
    Shifts k shift Q (Analysis.fail cause span) x' := of_fails (.fail cause span)

/-- One step after the other. -/
theorem bind {x x' : Analysis α} {f f' : α → Analysis β} (hx : Shifts k shift Q x x')
    (hf : ∀ q, Q q → Shifts k shift' R (f q) (f' (shift q))) : Shifts k shift' R (x >>= f) (x' >>= f') := by
  intro a b r h
  obtain ⟨q, c, hq, h⟩ := of_bind_ok h
  obtain ⟨known, first⟩ := hx a c q hq
  obtain ⟨gives, second⟩ := hf q known c b r h
  refine ⟨gives, ?_⟩
  rw [bind_eq_bindCont, first]
  exact second

/-- The state is looked at. -/
theorem get {f f' : AnalysisState → Analysis α} (h : ∀ a, Shifts k shift Q (f a) (f' (a.shifted k))) :
    Shifts k shift Q (MonadState.get >>= f) (MonadState.get >>= f') := fun a => h a a

/-- The environment is looked at. -/
theorem env {f f' : Environment → Analysis α} (h : ∀ env, Shifts k shift Q (f env) (f' env)) :
    Shifts k shift Q (Analysis.env >>= f) (Analysis.env >>= f') := fun a => h a.env a

theorem modifyEnv (f : Environment → Environment) : Unnumbered k (Analysis.modifyEnv f) := by
  rintro a b r ⟨⟩
  exact ⟨trivial, rfl⟩

theorem remember (t : Ty) : Unnumbered k (Analysis.remember t) := modifyEnv _

/-- The number of a call site is the one that is taken, shifted. -/
theorem newSite : Shifts k (· + k) (fun _ => True) Analysis.newSite Analysis.newSite := by
  rintro a b r ⟨⟩
  refine ⟨trivial, ?_⟩
  show (Except.ok (a.nextSite + k), ({ a with nextSite := a.nextSite + k + 1 } : AnalysisState)) = _
  rw [Nat.add_right_comm]
  rfl

theorem ite {c : Prop} [Decidable c] {x x' y y' : Analysis α} (hx : c → Shifts k shift Q x x')
    (hy : ¬ c → Shifts k shift Q y y') : Shifts k shift Q (if c then x else y) (if c then x' else y') := by
  split
  · exact hx ‹_›
  · exact hy ‹_›

end Shifts

/-- A step that asks for the environment alone does not look at numbers. -/
theorem Asks.unnumbered {k : Nat} {x : Analysis α} (asks : Asks x) : Unnumbered k x := by
  intro a b r h
  obtain rfl : b = a := asks.eq_of_ok h
  have gives : (x b).1 = .ok r := congrArg Prod.fst h
  exact ⟨trivial, Prod.ext ((asks.outcome_eq (b.shifted k) b rfl).trans gives) (asks.checks _)⟩

end Analysis

namespace Context

open Analysis

/-- The context for another source text. -/
def reading (ctx : Context) (source : List Char) : Context := { ctx with source := source }

variable (ctx : Context) {k : Nat} {p : String} {source : List Char}

theorem classNamed?_reading (env : Environment) (name : String) :
    (ctx.reading source).classNamed? env name = ctx.classNamed? env name := rfl

/-! ## Types -/

mutual

theorem shifts_resolveType (t : Syntax.TypeExpr) :
    Shifts k id (fun _ => True) (ctx.resolveType t) ((ctx.reading source).resolveType t) := by
  obtain ⟨path, args, dims, span⟩ := t
  unfold resolveType
  refine .env fun env => ?_
  rw [classNamed?_reading]
  split
  · exact .fail _ _ _
  · exact .bind (shifts_resolveTypes args) fun _ _ => .pure trivial

theorem shifts_resolveTypes (ts : List Syntax.TypeExpr) :
    Shifts k id (fun _ => True) (ctx.resolveTypes ts) ((ctx.reading source).resolveTypes ts) := by
  cases ts with
  | nil =>
    unfold resolveTypes
    exact .pure trivial
  | cons t ts =>
    unfold resolveTypes
    exact .bind (shifts_resolveType t) fun _ _ => .bind (shifts_resolveTypes ts) fun _ _ => .pure trivial

end

/-! ## Names -/

/-- A typed expression is made, with all numbers shifted; it does not have the name. -/
abbrev ShiftsNode (k : Nat) (p : String) (x x' : Analysis Expr) : Prop := Shifts k (Expr.shifted k) (Expr.Lacks p) x x'

/-- A node without parts. -/
theorem lacks_leaf {e : Expr} (alone : e.inner = []) (h : e.named? ≠ some p) : e.Lacks p := by
  intro n hn
  rw [Expr.parts, alone] at hn
  rwa [List.mem_singleton.1 hn]

/-- A node of its parts. -/
theorem lacks_node {e : Expr} (own : e.named? = none) (inner : ∀ n ∈ e.inner, n.named? ≠ some p) : e.Lacks p := by
  refine List.forall_mem_cons.2 ⟨?_, inner⟩
  rw [own]
  exact nofun

/-- A variable of another name. -/
theorem lacks_variable {e : Expr} {name : String} (alone : e.inner = []) (named : e.named? = some name)
    (other : name ≠ p) : e.Lacks p :=
  lacks_leaf alone fun same => other (Option.some.inj (named.symm.trans same))

theorem lacks_thisNode (env : Environment) (span : Span) : (thisNode env span).Lacks p := lacks_leaf rfl nofun

theorem lacks_classNode (c : ClassRef) (span : Span) : (classNode c span).Lacks p := lacks_leaf rfl nofun

theorem shifts_inputNode {name : String} (other : name ≠ p) (type : Ty) (span : Span) :
    ShiftsNode k p (inputNode name type span) (inputNode name type span) :=
  .bind .newSite fun _ _ => .pure (lacks_variable rfl rfl other)

theorem shifts_unknownName {name : String} (other : name ≠ p) (span : Span) :
    ShiftsNode k p (unknownName name span) (unknownName name span) := by
  unfold unknownName
  refine .env fun env => ?_
  split
  · exact .fail _ _ _
  · split
    · exact .bind (.modifyEnv _) fun _ _ => .pure (lacks_variable rfl rfl other)
    · exact .bind (.modifyEnv _) fun _ _ => shifts_inputNode other _ span

theorem shifts_freeName {name : String} (other : name ≠ p) (span : Span) :
    ShiftsNode k p (ctx.freeName name span) (ctx.freeName name span) := by
  unfold freeName
  refine .env fun env => ?_
  split
  · exact .pure (lacks_thisNode env span)
  · split
    · exact .pure (lacks_leaf rfl nofun)
    · split
      · refine .bind (.remember _) fun _ _ => .bind .newSite fun site _ => ?_
        exact .pure (lacks_node rfl (lacks_thisNode env span))
      · split
        · exact .pure (lacks_leaf rfl nofun)
        · exact shifts_unknownName other span

theorem shifts_ident {name : String} (other : name ≠ p) (span : Span) :
    ShiftsNode k p (ctx.ident name span) (ctx.ident name span) := by
  have named {i : Info} : (Expr.declared i name).Lacks p := lacks_variable rfl rfl other
  unfold ident
  refine .get fun a => ?_
  dsimp only [AnalysisState.shifted]
  split
  · exact .pure named
  · split
    · exact .bind (.remember _) fun _ _ => .pure named
    · split
      · exact .bind (.remember _) fun _ _ => shifts_inputNode other _ span
      · exact ctx.shifts_freeName other span

theorem classPrefix?_reading (env : Environment) (path : List String) (length : Nat) :
    (ctx.reading source).classPrefix? env path length = ctx.classPrefix? env path length := by
  induction length with
  | zero => rfl
  | succ length ih =>
    unfold classPrefix?
    rw [ih]
    rfl

/-- A path is looked up in what is known, not in numbers. -/
theorem qualified?_shifted (a : AnalysisState) (e : Syntax.Expr) :
    (ctx.reading source).qualified? (a.shifted k) e = ctx.qualified? a e := by
  unfold qualified?
  simp only [classPrefix?_reading]
  rfl

/-! ## Members and calls -/

theorem shifts_property {receiver : Expr} (h : receiver.Lacks p) (name : String) (span : Span) :
    ShiftsNode k p (ctx.property receiver name span) (ctx.property (receiver.shifted k) name span) := by
  unfold property
  rw [Expr.classMeant?_shifted, Expr.type_shifted]
  dsimp only
  split
  · exact .bind (.remember _) fun _ _ => .pure (lacks_leaf rfl nofun)
  · refine .bind (ctx.asks_propertyType _ name span).unnumbered fun type _ => ?_
    exact .bind (.remember _) fun _ _ => .bind .newSite fun _ _ => .pure (lacks_node rfl h)

theorem shifts_propertyChain {e : Expr} (h : e.Lacks p) (span : Span) (names : List String) :
    ShiftsNode k p (ctx.propertyChain span e names) ((ctx.reading source).propertyChain span (e.shifted k) names) := by
  induction names generalizing e with
  | nil => exact .pure h
  | cons name names ih =>
    unfold propertyChain
    exact .bind (ctx.shifts_property h name span) fun e he => ih he

/-- The type of a call depends on the receiver's type alone. -/
theorem callType_shifted (receiver : Expr) (name : String) (args : List Ty) (span : Span) :
    ctx.callType (receiver.shifted k) name args span = ctx.callType receiver name args span := by
  unfold callType
  rw [Expr.classMeant?_shifted, Expr.type_shifted]

/-- Expressions in a row none of which has the name. -/
abbrev LackAll (p : String) (es : List Expr) : Prop := ∀ n ∈ Expr.partsAll es, n.named? ≠ some p

theorem shifts_methodCall {receiver : Expr} (h : receiver.Lacks p) (name : String) {args : List Expr}
    (ha : LackAll p args) (span : Span) : ShiftsNode k p (ctx.methodCall receiver name args span)
      (ctx.methodCall (receiver.shifted k) name (Expr.shiftedAll k args) span) := by
  unfold methodCall
  rw [callType_shifted, Expr.types_shiftedAll]
  refine .bind (ctx.asks_callType receiver name _ span).unnumbered fun type _ => ?_
  refine .bind (.remember _) fun _ _ => .bind .newSite fun _ _ => .pure (lacks_node rfl ?_)
  exact List.forall_mem_append.2 ⟨h, ha⟩

theorem shifts_callFunction (name : String) {args : List Expr} (ha : LackAll p args) (span : Span) :
    ShiftsNode k p (ctx.callFunction name args span) (ctx.callFunction name (Expr.shiftedAll k args) span) := by
  unfold callFunction
  rw [Expr.types_shiftedAll]
  refine .env fun env => ?_
  split
  · dsimp only
    split
    · exact .fail _ _ _
    · exact .pure (lacks_node rfl ha)
  · exact ctx.shifts_methodCall (lacks_thisNode env span) name ha span

/-- A name is called unless it is a conversion, which has two arguments. -/
theorem callNamed_eq_callFunction {name : String} {args : List Expr} (h : name ≠ "convert" ∨ args.length ≠ 2)
    (span : Span) : ctx.callNamed name args span = ctx.callFunction name args span := by
  unfold callNamed
  split
  · rcases h with named | counted
    · exact absurd rfl named
    · exact absurd rfl counted
  · rfl

theorem shifts_callNamed (name : String) {args : List Expr} (ha : LackAll p args) (span : Span) :
    ShiftsNode k p (ctx.callNamed name args span) (ctx.callNamed name (Expr.shiftedAll k args) span) := by
  by_cases conversion : name = "convert" ∧ args.length = 2
  · -- a conversion is no call of a function, and takes its two arguments apart
    obtain ⟨rfl, two⟩ := conversion
    obtain ⟨value, target, rfl⟩ : ∃ value target, args = [value, target] := by
      match args, two with
      | [value, target], _ => exact ⟨value, target, rfl⟩
    have node : conversionNode (value.shifted k) (target.shifted k) span
        = (conversionNode value target span).shifted k := by
      unfold conversionNode
      rw [Expr.classMeant?_shifted]
      rfl
    show ShiftsNode k p (Pure.pure (conversionNode value target span))
      (Pure.pure (conversionNode (value.shifted k) (target.shifted k) span))
    rw [node]
    refine .pure (lacks_node rfl ?_)
    simpa [LackAll, Expr.partsAll, Expr.inner, conversionNode] using ha
  · have called : name ≠ "convert" ∨ args.length ≠ 2 := Decidable.not_and_iff_not_or_not.1 conversion
    rw [ctx.callNamed_eq_callFunction called, ctx.callNamed_eq_callFunction (by simpa using called)]
    exact ctx.shifts_callFunction name ha span

theorem shifts_index {receiver position : Expr} (hr : receiver.Lacks p) (hp : position.Lacks p) (span : Span) :
    ShiftsNode k p (ctx.index receiver position span) (ctx.index (receiver.shifted k) (position.shifted k) span) := by
  unfold index
  rw [Expr.type_shifted]
  refine .bind (ctx.asks_indexType _ span).unnumbered fun type _ => ?_
  refine .bind (.remember _) fun _ _ => .bind .newSite fun _ _ => .pure (lacks_node rfl ?_)
  exact List.forall_mem_append.2 ⟨hr, hp⟩

theorem shifts_construct (type : Ty) {args : List Expr} (ha : LackAll p args) (span : Span) :
    ShiftsNode k p (ctx.construct type args span) (ctx.construct type (Expr.shiftedAll k args) span) := by
  unfold construct
  rw [Expr.types_shiftedAll]
  refine .bind (ctx.asks_chosenConstructor type _ span).unnumbered fun chosen _ => ?_
  exact .bind (.remember _) fun _ _ => .pure (lacks_node rfl ha)

/-! ## Operators -/

theorem shifts_checkCondition (cond : Expr) :
    Shifts k id (fun _ => True) (ctx.checkCondition cond) (ctx.checkCondition (cond.shifted k)) := by
  have same : ctx.checkCondition (cond.shifted k) = ctx.checkCondition cond := by
    unfold checkCondition
    rw [Expr.type_shifted, Expr.span_shifted]
  rw [same]
  exact (ctx.asks_checkCondition cond).unnumbered

theorem shifts_checkLength (length : Expr) :
    Shifts k id (fun _ => True) (ctx.checkLength length) (ctx.checkLength (length.shifted k)) := by
  have same : ctx.checkLength (length.shifted k) = ctx.checkLength length := by
    unfold checkLength
    rw [Expr.type_shifted, Expr.span_shifted]
  rw [same]
  exact (ctx.asks_checkLength length).unnumbered

/-! ## Assignment -/

theorem shifts_checkAssignable (target : Expr) (span : Span) :
    Shifts k id (fun _ => True) (ctx.checkAssignable target span)
      ((ctx.reading source).checkAssignable (target.shifted k) span) := by
  unfold checkAssignable
  rw [Expr.isAssignable_shifted]
  exact .ite (fun _ => .pure trivial) fun _ => .fail _ _ _

theorem shifts_checkWritable (target : Expr) (span : Span) :
    Shifts k id (fun _ => True) (ctx.checkWritable target span) (ctx.checkWritable (target.shifted k) span) := by
  have same : ctx.checkWritable (target.shifted k) span = ctx.checkWritable target span := by
    cases target with
    | property i receiver name site =>
      unfold Expr.shifted checkWritable
      dsimp only
      rw [Expr.type_shifted]
    | _ => rfl
  rw [same]
  exact (ctx.asks_checkWritable target span).unnumbered

/-- A type that a target stores says something about its values. -/
theorem isDynamic_eq_false_of_storedType? {t type : Ty} (h : storedType? t = some type) : type.isDynamic = false := by
  unfold storedType? at h
  split at h
  · cases h
  · rename_i known
    cases h
    exact Bool.not_eq_true _ ▸ known

/-- A target is made, with all numbers shifted, and the type that it stores, if that is known; the target does not have
the name. -/
abbrev ShiftsTarget (k : Nat) (p : String) (x x' : Analysis (Expr × Option Ty)) : Prop :=
  Shifts k (fun r => (r.1.shifted k, r.2)) (fun r => r.1.Lacks p ∧ ∀ type, r.2 = some type → type.isDynamic = false)
    x x'

theorem shifts_assignedName {name : String} (other : name ≠ p) (span : Span) (value : Ty) :
    ShiftsTarget k p (ctx.assignedName name span value) ((ctx.reading source).assignedName name span value) := by
  have named {i : Info} : (Expr.declared i name).Lacks p := lacks_variable rfl rfl other
  unfold assignedName
  refine .get fun a => ?_
  dsimp only [AnalysisState.shifted]
  split
  · exact .pure ⟨named, fun _ => isDynamic_eq_false_of_storedType?⟩
  · split
    · exact .pure ⟨named, fun _ => isDynamic_eq_false_of_storedType?⟩
    · split
      · exact .bind (shifts_inputNode other _ span) fun _ h => .pure ⟨h, fun _ => isDynamic_eq_false_of_storedType?⟩
      · refine .ite (fun _ => ?_) fun _ => .bind (.modifyEnv _) fun _ _ => .pure ⟨named, nofun⟩
        refine .bind (ctx.shifts_ident other span) fun target h => ?_
        rw [Expr.span_shifted, Expr.type_shifted]
        refine .bind (ctx.shifts_checkAssignable target _) fun _ _ => ?_
        exact .pure ⟨h, fun _ => isDynamic_eq_false_of_storedType?⟩

theorem shifts_checkedTarget {analyzed analyzed' : Analysis Expr} (h : ShiftsNode k p analyzed analyzed')
    (span : Span) :
    ShiftsTarget k p (ctx.checkedTarget analyzed span) ((ctx.reading source).checkedTarget analyzed' span) := by
  unfold checkedTarget
  refine .bind h fun node hn => ?_
  rw [Expr.span_shifted, Expr.type_shifted]
  refine .bind (ctx.shifts_checkWritable node span) fun _ _ => ?_
  refine .bind (ctx.shifts_checkAssignable node _) fun _ _ => ?_
  exact .pure ⟨hn, fun _ => isDynamic_eq_false_of_storedType?⟩

theorem shifts_assignedTarget {target : Syntax.Expr} (other : p ∉ target.names) {analyzed analyzed' : Analysis Expr}
    (h : ShiftsNode k p analyzed analyzed') (value : Ty) :
    ShiftsTarget k p (ctx.assignedTarget target analyzed value)
      ((ctx.reading source).assignedTarget target analyzed' value) := by
  obtain ⟨span, name, rfl⟩ | read | refused := assignedTarget_cases target
  · exact ctx.shifts_assignedName (fun same => other (by simp [Syntax.Expr.names, same])) span value
  · rw [read, read]
    exact ctx.shifts_checkedTarget h _
  · rw [refused, refused]
    exact .fail _ _ _

theorem shifts_plainAssignment {value target : Expr} (hv : value.Lacks p) (ht : target.Lacks p) (stored : Option Ty)
    (span : Span) : ShiftsNode k p (ctx.plainAssignment value target stored span)
      (ctx.plainAssignment (value.shifted k) (target.shifted k) stored span) := by
  have whole {i : Info} : (Expr.assign i target .plain value stored).Lacks p :=
    lacks_node rfl (List.forall_mem_append.2 ⟨ht, hv⟩)
  unfold plainAssignment
  rw [Expr.type_shifted, Expr.span_shifted]
  cases stored with
  | none => exact .pure whole
  | some type => exact .bind (ctx.asks_checkCoercion _ _ _).unnumbered fun _ _ => .pure whole

theorem shifts_compoundAssignment (op : ArithOp) {target value : Expr} (ht : target.Lacks p) (hv : value.Lacks p)
    (span : Span) : ShiftsNode k p (ctx.compoundAssignment op target value span)
      ((ctx.reading source).compoundAssignment op (target.shifted k) (value.shifted k) span) := by
  have whole {i : Info} {stored : Option Ty} : (Expr.assign i target (.compound op) value stored).Lacks p :=
    lacks_node rfl (List.forall_mem_append.2 ⟨ht, hv⟩)
  unfold compoundAssignment
  rw [Expr.type_shifted, Expr.type_shifted, Expr.span_shifted]
  refine .bind (ctx.shifts_checkAssignable target _) fun _ _ => ?_
  refine .bind (ctx.asks_arithType op _ _ span).unnumbered fun result _ => ?_
  dsimp only
  cases storedType? target.type with
  | none => exact .pure whole
  | some type => exact .bind (ctx.asks_checkCoercion _ _ _).unnumbered fun _ _ => .pure whole

theorem shifts_stepNode (op : StepOp) {target : Expr} (ht : target.Lacks p) (span : Span) :
    ShiftsNode k p (ctx.stepNode op target span) ((ctx.reading source).stepNode op (target.shifted k) span) := by
  unfold stepNode
  rw [Expr.type_shifted]
  refine .bind (ctx.shifts_checkAssignable target span) fun _ _ => ?_
  refine .bind Asks.strong.unnumbered fun strong _ => .ite (fun _ => .of_fails ?_) fun _ => .pure (lacks_node rfl ht)
  intro a b r h
  cases h

/-! ## Containers -/

/-- The entries of a map none of which has the name. -/
abbrev LackEntries (p : String) (es : List (Expr × Expr)) : Prop := ∀ n ∈ Expr.partsEntries es, n.named? ≠ some p

theorem shifts_inlineList {items : List Expr} (ha : LackAll p items) (span : Span) :
    ShiftsNode k p (ctx.inlineList items span) (ctx.inlineList (Expr.shiftedAll k items) span) := by
  unfold inlineList
  rw [Expr.types_shiftedAll]
  exact .bind (.remember _) fun _ _ => .pure (lacks_node rfl ha)

theorem shifts_inlineMap {entries : List (Expr × Expr)} (ha : LackEntries p entries) (span : Span) :
    ShiftsNode k p (ctx.inlineMap entries span) (ctx.inlineMap (Expr.shiftedEntries k entries) span) := by
  unfold inlineMap
  rw [Expr.keyTypes_shiftedEntries, Expr.valueTypes_shiftedEntries]
  exact .bind (.remember _) fun _ _ => .pure (lacks_node rfl ha)

theorem inlineArray_shifted (items : List Expr) (span : Span) :
    ctx.inlineArray (Expr.shiftedAll k items) span = (ctx.inlineArray items span).shifted k := by
  unfold inlineArray
  rw [Expr.types_shiftedAll]
  rfl

/-! ## Expressions -/

/-- Two parts lack a name, and so does what is made of them. -/
theorem lacks_pair {e a b : Expr} (own : e.named? = none) (inner : e.inner = a.parts ++ b.parts) (ha : a.Lacks p)
    (hb : b.Lacks p) : e.Lacks p := lacks_node own (inner ▸ List.forall_mem_append.2 ⟨ha, hb⟩)

theorem lackAll_nil : LackAll p [] := by simp [LackAll, Expr.partsAll]

theorem lackEntries_nil : LackEntries p [] := by simp [LackEntries, Expr.partsEntries]

theorem lackAll_cons {e : Expr} {es : List Expr} (he : e.Lacks p) (rest : LackAll p es) : LackAll p (e :: es) := by
  rw [LackAll, Expr.partsAll_cons]
  exact List.forall_mem_append.2 ⟨he, rest⟩

theorem lackEntries_cons {key value : Expr} {es : List (Expr × Expr)} (hk : key.Lacks p) (hv : value.Lacks p)
    (rest : LackEntries p es) : LackEntries p ((key, value) :: es) := by
  rw [LackEntries, Expr.partsEntries_cons]
  exact List.forall_mem_append.2 ⟨List.forall_mem_append.2 ⟨hk, hv⟩, rest⟩

mutual

/-- The analysis of an expression that does not have the name. -/
theorem shifts_expr (e : Syntax.Expr) (other : p ∉ e.names) (hint : Option Ty) :
    ShiftsNode k p (ctx.expr e hint) ((ctx.reading source).expr e hint) := by
  -- by recursion on the expression: one rule for each step of analysis, and the name occurs in none of the parts
  cases e with
  | literal span value =>
    unfold expr
    exact .pure (lacks_leaf rfl nofun)
  | ident span name =>
    unfold expr
    exact ctx.shifts_ident (fun same => other (by simp [Syntax.Expr.names, same])) span
  | field span receiver name =>
    rw [Syntax.Expr.names] at other
    unfold expr
    refine .get fun a => ?_
    rw [qualified?_shifted]
    split
    · exact ctx.shifts_propertyChain (lacks_classNode _ span) span _
    · exact .bind (shifts_expr receiver other none) fun e he => ctx.shifts_property he name span
  | methodCall span receiver name args =>
    rw [Syntax.Expr.names, List.mem_append, not_or] at other
    unfold expr
    refine .bind (shifts_expr receiver other.1 none) fun receiver hr => ?_
    exact .bind (shifts_exprs args other.2) fun args ha => ctx.shifts_methodCall hr name ha span
  | call span name args =>
    rw [Syntax.Expr.names] at other
    unfold expr
    exact .bind (shifts_exprs args other) fun args ha => ctx.shifts_callNamed name ha span
  | index span receiver position =>
    rw [Syntax.Expr.names, List.mem_append, not_or] at other
    unfold expr
    refine .bind (shifts_expr receiver other.1 none) fun receiver hr => ?_
    exact .bind (shifts_expr position other.2 none) fun position hp => ctx.shifts_index hr hp span
  | assign span target op value =>
    rw [Syntax.Expr.names, List.mem_append, not_or] at other
    cases op with
    | plain =>
      unfold expr
      refine .bind (shifts_expr value other.2 none) fun value hv => ?_
      rw [Expr.type_shifted]
      refine .bind (ctx.shifts_assignedTarget other.1 (shifts_expr target other.1 none) _) fun r ht => ?_
      exact ctx.shifts_plainAssignment hv ht.1 r.2 span
    | compound op =>
      unfold expr
      refine .bind (shifts_expr target other.1 none) fun target ht => ?_
      exact .bind (shifts_expr value other.2 none) fun value hv => ctx.shifts_compoundAssignment op ht hv span
  | arith span op left right =>
    rw [Syntax.Expr.names, List.mem_append, not_or] at other
    unfold expr
    refine .bind (shifts_expr left other.1 none) fun left hl => ?_
    refine .bind (shifts_expr right other.2 none) fun right hr => ?_
    rw [Expr.type_shifted, Expr.type_shifted]
    exact .bind (ctx.asks_arithType op _ _ span).unnumbered fun _ _ => .pure (lacks_pair rfl rfl hl hr)
  | logic span op left right =>
    rw [Syntax.Expr.names, List.mem_append, not_or] at other
    unfold expr
    refine .bind (shifts_expr left other.1 none) fun left hl => ?_
    refine .bind (ctx.shifts_checkCondition left) fun _ _ => ?_
    refine .bind (shifts_expr right other.2 none) fun right hr => ?_
    exact .bind (ctx.shifts_checkCondition right) fun _ _ => .pure (lacks_pair rfl rfl hl hr)
  | compare span op left right =>
    rw [Syntax.Expr.names, List.mem_append, not_or] at other
    unfold expr
    refine .bind (shifts_expr left other.1 none) fun left hl => ?_
    refine .bind (shifts_expr right other.2 none) fun right hr => ?_
    rw [Expr.type_shifted, Expr.type_shifted]
    exact .bind (ctx.asks_checkComparison op _ _ span).unnumbered fun _ _ => .pure (lacks_pair rfl rfl hl hr)
  | unary span op operand =>
    rw [Syntax.Expr.names] at other
    unfold expr
    refine .bind (shifts_expr operand other none) fun operand ho => ?_
    -- the two operators differ in one check only
    have node : ShiftsNode k p (do
          let type ← ctx.unaryType op operand.type span
          return Expr.unary ⟨type, span⟩ op operand)
        (do
          let type ← ctx.unaryType op operand.type span
          return Expr.unary ⟨type, span⟩ op (operand.shifted k)) :=
      .bind (ctx.asks_unaryType op _ span).unnumbered fun _ _ => .pure (lacks_node rfl ho)
    rw [Expr.type_shifted]
    cases op with
    | not => exact .bind (ctx.shifts_checkCondition operand) fun _ _ => node
    | neg => exact node
  | step span op target =>
    rw [Syntax.Expr.names] at other
    unfold expr
    exact .bind (shifts_expr target other none) fun target ht => ctx.shifts_stepNode op ht span
  | cast span type operand =>
    rw [Syntax.Expr.names] at other
    unfold expr
    refine .bind (ctx.shifts_resolveType type) fun type _ => ?_
    refine .bind (shifts_expr operand other (some type)) fun operand ho => ?_
    rw [Expr.type_shifted]
    exact .bind (ctx.asks_checkCast _ type span).unnumbered fun _ _ => .pure (lacks_node rfl ho)
  | conditional span cond thenBranch elseBranch =>
    rw [Syntax.Expr.names, List.mem_append, not_or, List.mem_append, not_or] at other
    unfold expr
    refine .bind (shifts_expr cond other.1.1 none) fun cond hc => ?_
    refine .bind (ctx.shifts_checkCondition cond) fun _ _ => ?_
    refine .bind (shifts_expr thenBranch other.1.2 hint) fun a ha => ?_
    refine .bind (shifts_expr elseBranch other.2 hint) fun b hb => ?_
    rw [Expr.type_shifted, Expr.type_shifted]
    exact .pure (lacks_node rfl (List.forall_mem_append.2 ⟨List.forall_mem_append.2 ⟨hc, ha⟩, hb⟩))
  | construct span type args =>
    rw [Syntax.Expr.names] at other
    unfold expr
    refine .bind (ctx.shifts_resolveType type) fun type _ => ?_
    exact .bind (shifts_exprs args other) fun args ha => ctx.shifts_construct type ha span
  | newArray span type items =>
    rw [Syntax.Expr.names] at other
    unfold expr
    refine .bind (ctx.shifts_resolveType type) fun type _ => ?_
    exact .bind (shifts_arrayItems _ items other) fun _ ha => .pure (lacks_node rfl ha)
  | newSized span type length =>
    rw [Syntax.Expr.names] at other
    unfold expr
    refine .bind (ctx.shifts_resolveType type) fun item _ => ?_
    refine .bind (shifts_expr length other none) fun length hl => ?_
    exact .bind (ctx.shifts_checkLength length) fun _ _ => .pure (lacks_node rfl hl)
  | inlineArray span items =>
    rw [Syntax.Expr.names] at other
    unfold expr
    split
    · exact .bind (shifts_arrayItems _ items other) fun _ ha => .pure (lacks_node rfl ha)
    · refine .bind (shifts_exprs items other) fun items ha => ?_
      rw [inlineArray_shifted]
      exact .pure (lacks_node rfl ha)
  | inlineList span items =>
    rw [Syntax.Expr.names] at other
    unfold expr
    exact .bind (shifts_exprs items other) fun items ha => ctx.shifts_inlineList ha span
  | inlineMap span entries =>
    rw [Syntax.Expr.names] at other
    unfold expr
    exact .bind (shifts_exprEntries entries other) fun entries ha => ctx.shifts_inlineMap ha span
termination_by sizeOf e

theorem shifts_exprs (es : List Syntax.Expr) (other : p ∉ Syntax.Expr.namesAll es) :
    Shifts k (Expr.shiftedAll k) (LackAll p) (ctx.exprs es) ((ctx.reading source).exprs es) := by
  cases es with
  | nil =>
    unfold exprs
    exact .pure lackAll_nil
  | cons e es =>
    rw [Syntax.Expr.namesAll, List.mem_append, not_or] at other
    unfold exprs
    refine .bind (shifts_expr e other.1 none) fun e he => ?_
    exact .bind (shifts_exprs es other.2) fun _ ha => .pure (lackAll_cons he ha)
termination_by sizeOf es

theorem shifts_arrayItems (item : Ty) (es : List Syntax.Expr) (other : p ∉ Syntax.Expr.namesAll es) :
    Shifts k (Expr.shiftedAll k) (LackAll p) (ctx.arrayItems item es) ((ctx.reading source).arrayItems item es) := by
  cases es with
  | nil =>
    unfold arrayItems
    exact .pure lackAll_nil
  | cons e es =>
    rw [Syntax.Expr.namesAll, List.mem_append, not_or] at other
    unfold arrayItems
    refine .bind (shifts_expr e other.1 (some item)) fun e he => ?_
    rw [Expr.type_shifted, Expr.span_shifted]
    refine .bind (ctx.asks_checkCoercion _ item _).unnumbered fun _ _ => ?_
    exact .bind (shifts_arrayItems item es other.2) fun _ ha => .pure (lackAll_cons he ha)
termination_by sizeOf es

theorem shifts_exprEntries (es : List (Syntax.Expr × Syntax.Expr)) (other : p ∉ Syntax.Expr.namesEntries es) :
    Shifts k (Expr.shiftedEntries k) (LackEntries p) (ctx.exprEntries es) ((ctx.reading source).exprEntries es) := by
  match es with
  | [] =>
    unfold exprEntries
    exact .pure lackEntries_nil
  | (key, value) :: rest =>
    rw [Syntax.Expr.namesEntries, List.mem_append, not_or, List.mem_append, not_or] at other
    unfold exprEntries
    refine .bind (shifts_expr key other.1.1 none) fun key hk => ?_
    refine .bind (shifts_expr value other.1.2 none) fun value hv => ?_
    exact .bind (shifts_exprEntries rest other.2) fun _ ha => .pure (lackEntries_cons hk hv ha)
termination_by sizeOf es

end

end Context

end HostExpr
