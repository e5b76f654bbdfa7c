import HostExpr.Proofs.Typing.Recording
import HostExpr.Proofs.Typing.Turns
import Mathlib.Data.List.Chain

/-!
# Every moment of an analysis

A recorded analysis does what the analysis does, and each environment that it takes down is a turn of the one before.
So what a turn keeps holds at every moment of an analysis, whether it succeeds or fails: `Compiler.names_record`.
-/

namespace HostExpr

open Typed

/-- Each environment is a turn of the one before it, and the latest is the one of the state. -/
structure Recorded.Sound (t : Recorded) : Prop where
  chain : t.past.IsChain fun later earlier => earlier.Turns later
  latest : t.past.head? = some t.state.env

namespace Recorded.Sound

theorem start (env : Environment) : (Recorded.start env).Sound := ⟨.singleton env, rfl⟩

/-- A turn is taken down. -/
theorem turn {t : Recorded} (h : t.Sound) {state : AnalysisState} (turn : t.state.env.Turns state.env) :
    Recorded.Sound ⟨state, state.env :: t.past⟩ where
  chain := by
    refine List.isChain_cons.2 ⟨fun earlier first => ?_, h.chain⟩
    rw [h.latest] at first
    cases first
    exact turn
  latest := rfl

end Recorded.Sound

/-- Closing a block leaves the names of the environment alone. -/
theorem AnalysisState.sameNames_closed (a : AnalysisState) : a.env.SameNames a.closed.env := by
  unfold AnalysisState.closed
  split
  · exact .foldl Environment.SameNames.noteBlockName _ _
  · exact .refl _

namespace Recording

variable {α β : Type}

/-- The recording gives what the analysis gives, leaves the state that the analysis leaves, and takes down turns. -/
structure Records (y : Recording α) (x : Analysis α) : Prop where
  outcome : ∀ t, (y t).1 = (x t.state).1
  state : ∀ t, (y t).2.state = (x t.state).2
  sound : ∀ t, t.Sound → (y t).2.Sound
  keeps : ∀ t, t.past <:+ (y t).2.past

namespace Records

theorem pure (r : α) : Records (Pure.pure r) (Pure.pure r) :=
  ⟨fun _ => rfl, fun _ => rfl, fun _ h => h, fun _ => List.suffix_rfl⟩

theorem step {x : Analysis α} (h : Analysis.Turns x) : Records (Recording.step x) x :=
  ⟨fun _ => rfl, fun _ => rfl, fun t sound => sound.turn (h t.state), fun _ => List.suffix_cons _ _⟩

/-- A step that leaves the names of the environment alone. -/
theorem keep {x : Analysis α} (h : Analysis.KeepsNames x) : Records (Recording.step x) x := step h.turns

/-- A step that only looks at the state. -/
theorem check {x : Analysis α} (h : Analysis.Asks x) : Records (Recording.step x) x := keep h.keepsNames

/-- One step after the other. -/
theorem bind {y : Recording α} {x : Analysis α} {g : α → Recording β} {f : α → Analysis β} (h : Records y x)
    (h' : ∀ r, Records (g r) (f r)) : Records (y >>= g) (x >>= f) := by
  -- the recording gives what the analysis gives, so that both continue alike
  have first (t : Recorded) : (y >>= g) t = ExceptT.bindCont g (x t.state).1 (y t).2 := by
    rw [bind_eq_bindCont, h.outcome t]
  have second (t : Recorded) : (x >>= f) t.state = ExceptT.bindCont f (x t.state).1 (y t).2.state := by
    rw [bind_eq_bindCont, h.state t]
  refine ⟨fun t => ?_, fun t => ?_, fun t sound => ?_, fun t => ?_⟩
  · rw [first, second]
    cases (x t.state).1 with
    | ok r => exact (h' r).outcome _
    | error e => rfl
  · rw [first, second]
    cases (x t.state).1 with
    | ok r => exact (h' r).state _
    | error e => rfl
  · rw [first]
    have sound := h.sound t sound
    cases (x t.state).1 with
    | ok r => exact (h' r).sound _ sound
    | error e => exact sound
  · rw [first]
    refine (h.keeps t).trans ?_
    cases (x t.state).1 with
    | ok r => exact (h' r).keeps _
    | error e => exact List.suffix_rfl

theorem map {y : Recording α} {x : Analysis α} (f : α → β) (h : Records y x) : Records (f <$> y) (f <$> x) :=
  h.bind fun r => .pure (f r)

/-- A block is opened and closed. -/
theorem inBlock {y : Recording α} {x : Analysis α} (h : Records y x) :
    Records (Recording.inBlock y) (Analysis.inBlock x) := by
  refine ⟨fun t => ?_, fun t => ?_, fun t sound => ?_, fun t => ?_⟩
  · rw [Analysis.inBlock_apply]
    exact h.outcome _
  · rw [Analysis.inBlock_apply]
    exact congrArg AnalysisState.closed (h.state _)
  · have opened : Recorded.Sound { t with state := t.state.opened } := ⟨sound.chain, sound.latest⟩
    exact (h.sound _ opened).turn (.same (AnalysisState.sameNames_closed _))
  · exact (h.keeps { t with state := t.state.opened }).trans (List.suffix_cons _ _)

end Records

end Recording

namespace Context

open Recording

variable (ctx : Context)

/-! ## Expressions -/

theorem records_chain (span : Span) (e : Expr) (names : List String) :
    Records (ctx.recordChain span e names) (ctx.propertyChain span e names) := by
  induction names generalizing e with
  | nil => exact .pure _
  | cons name names ih =>
    unfold recordChain propertyChain
    exact .bind (.keep (ctx.keepsNames_property e name span)) fun e => ih e

theorem records_target (target : Syntax.Expr) {y : Recording Expr} {x : Analysis Expr} (h : Records y x)
    (value : Ty) : Records (ctx.recordTarget target y value) (ctx.assignedTarget target x value) := by
  unfold recordTarget
  have node (span : Span) : Records
      (do
        let node ← y
        step (ctx.checkWritable node span)
        step (ctx.checkAssignable node node.span)
        return (node, storedType? node.type))
      (ctx.checkedTarget x span) := by
    unfold checkedTarget
    refine .bind h fun node => ?_
    refine .bind (.check (ctx.asks_checkWritable node span)) fun _ => ?_
    exact .bind (.check (ctx.asks_checkAssignable node _)) fun _ => .pure _
  cases target with
  | ident span name => exact .step (ctx.turns_assignedName name span value)
  | field span receiver name => exact node span
  | index span receiver position => exact node span
  | _ => exact .check (.fail _ _)

mutual

theorem records_expr (e : Syntax.Expr) (hint : Option Ty) : Records (ctx.recordExpr e hint) (ctx.expr e hint) := by
  -- by recursion on the expression: recording takes the steps of the analysis, one by one
  cases e with
  | literal span value =>
    unfold recordExpr expr
    exact .pure _
  | ident span name =>
    unfold recordExpr expr
    exact .step (ctx.turns_ident name span)
  | field span receiver name =>
    unfold recordExpr expr
    refine .bind (.keep .get) fun s => ?_
    cases ctx.qualified? s (.field span receiver name) with
    | some meant => exact ctx.records_chain span _ _
    | none => exact .bind (records_expr receiver none) fun e => .keep (ctx.keepsNames_property e name span)
  | methodCall span receiver name args =>
    unfold recordExpr expr
    refine .bind (records_expr receiver none) fun receiver => ?_
    exact .bind (records_exprs args) fun args => .keep (ctx.keepsNames_methodCall receiver name args span)
  | call span name args =>
    unfold recordExpr expr
    exact .bind (records_exprs args) fun args => .keep (ctx.keepsNames_callNamed name args span)
  | index span receiver position =>
    unfold recordExpr expr
    refine .bind (records_expr receiver none) fun receiver => ?_
    exact .bind (records_expr position none) fun position => .keep (ctx.keepsNames_index receiver position span)
  | assign span target op value =>
    cases op with
    | plain =>
      unfold recordExpr expr
      refine .bind (records_expr value none) fun value => ?_
      refine .bind (ctx.records_target target (records_expr target none) value.type) fun r => ?_
      exact .check (ctx.asks_plainAssignment value r.1 r.2 span)
    | compound op =>
      unfold recordExpr expr
      refine .bind (records_expr target none) fun target => ?_
      exact .bind (records_expr value none) fun value => .check (ctx.asks_compoundAssignment op target value span)
  | arith span op left right =>
    unfold recordExpr expr
    refine .bind (records_expr left none) fun left => ?_
    refine .bind (records_expr right none) fun right => ?_
    exact .bind (.check (ctx.asks_arithType op _ _ span)) fun _ => .pure _
  | logic span op left right =>
    unfold recordExpr expr
    refine .bind (records_expr left none) fun left => ?_
    refine .bind (.check (ctx.asks_checkCondition left)) fun _ => ?_
    refine .bind (records_expr right none) fun right => ?_
    exact .bind (.check (ctx.asks_checkCondition right)) fun _ => .pure _
  | compare span op left right =>
    unfold recordExpr expr
    refine .bind (records_expr left none) fun left => ?_
    refine .bind (records_expr right none) fun right => ?_
    exact .bind (.check (ctx.asks_checkComparison op _ _ span)) fun _ => .pure _
  | unary span op operand =>
    unfold recordExpr expr
    refine .bind (records_expr operand none) fun operand => ?_
    cases op with
    | not =>
      refine .bind (.check (ctx.asks_checkCondition operand)) fun _ => ?_
      exact .bind (.check (ctx.asks_unaryType _ _ span)) fun _ => .pure _
    | neg => exact .bind (.check (ctx.asks_unaryType _ _ span)) fun _ => .pure _
  | step span op target =>
    unfold recordExpr expr
    exact .bind (records_expr target none) fun target => .check (ctx.asks_stepNode op target span)
  | cast span type operand =>
    unfold recordExpr expr
    refine .bind (.check (ctx.asks_resolveType type)) fun type => ?_
    refine .bind (records_expr operand (some type)) fun operand => ?_
    exact .bind (.check (ctx.asks_checkCast operand.type type span)) fun _ => .pure _
  | conditional span cond thenBranch elseBranch =>
    unfold recordExpr expr
    refine .bind (records_expr cond none) fun cond => ?_
    refine .bind (.check (ctx.asks_checkCondition cond)) fun _ => ?_
    refine .bind (records_expr thenBranch hint) fun a => ?_
    exact .bind (records_expr elseBranch hint) fun b => .pure _
  | construct span type args =>
    unfold recordExpr expr
    refine .bind (.check (ctx.asks_resolveType type)) fun type => ?_
    exact .bind (records_exprs args) fun args => .keep (ctx.keepsNames_construct type args span)
  | newArray span type items =>
    unfold recordExpr expr
    refine .bind (.check (ctx.asks_resolveType type)) fun item => ?_
    exact .bind (records_items item items) fun _ => .pure _
  | newSized span type length =>
    unfold recordExpr expr
    refine .bind (.check (ctx.asks_resolveType type)) fun item => ?_
    refine .bind (records_expr length none) fun length => ?_
    exact .bind (.check (ctx.asks_checkLength length)) fun _ => .pure _
  | inlineArray span items =>
    unfold recordExpr expr
    cases expectedItem? hint with
    | some item => exact .bind (records_items item items) fun _ => .pure _
    | none => exact .bind (records_exprs items) fun _ => .pure _
  | inlineList span items =>
    unfold recordExpr expr
    exact .bind (records_exprs items) fun items => .keep (ctx.keepsNames_inlineList items span)
  | inlineMap span entries =>
    unfold recordExpr expr
    exact .bind (records_entries entries) fun entries => .keep (ctx.keepsNames_inlineMap entries span)
termination_by sizeOf e

theorem records_exprs (es : List Syntax.Expr) : Records (ctx.recordExprs es) (ctx.exprs es) := by
  cases es with
  | nil =>
    unfold recordExprs exprs
    exact .pure _
  | cons e es =>
    unfold recordExprs exprs
    exact .bind (records_expr e none) fun _ => .bind (records_exprs es) fun _ => .pure _
termination_by sizeOf es

theorem records_items (item : Ty) (es : List Syntax.Expr) :
    Records (ctx.recordItems item es) (ctx.arrayItems item es) := by
  cases es with
  | nil =>
    unfold recordItems arrayItems
    exact .pure _
  | cons e es =>
    unfold recordItems arrayItems
    refine .bind (records_expr e (some item)) fun e => ?_
    refine .bind (.check (ctx.asks_checkCoercion _ _ _)) fun _ => ?_
    exact .bind (records_items item es) fun _ => .pure _
termination_by sizeOf es

theorem records_entries (entries : List (Syntax.Expr × Syntax.Expr)) :
    Records (ctx.recordEntries entries) (ctx.exprEntries entries) := by
  match entries with
  | [] =>
    unfold recordEntries exprEntries
    exact .pure _
  | (key, value) :: rest =>
    unfold recordEntries exprEntries
    refine .bind (records_expr key none) fun key => ?_
    refine .bind (records_expr value none) fun value => ?_
    exact .bind (records_entries rest) fun _ => .pure _
termination_by sizeOf entries

end

/-! ## Statements -/

theorem records_expr? (e : Option Syntax.Expr) (hint : Option Ty) :
    Records (ctx.recordExpr? e hint) (ctx.expr? e hint) := by
  cases e with
  | none => exact .pure _
  | some e => exact .map _ (ctx.records_expr e hint)

theorem records_condition (e : Syntax.Expr) : Records (ctx.recordCondition e) (ctx.condition e) := by
  unfold recordCondition condition
  refine .bind (ctx.records_expr e none) fun cond => ?_
  exact .bind (.check (ctx.asks_checkCondition cond)) fun _ => .pure _

theorem records_condition? (e : Option Syntax.Expr) : Records (ctx.recordCondition? e) (ctx.condition? e) := by
  cases e with
  | none => exact .pure _
  | some e => exact .map _ (ctx.records_condition e)

theorem records_declarator (declared : Option Ty) (d : Syntax.Declarator) :
    Records (ctx.recordDeclarator declared d) (ctx.declarator declared d) := by
  unfold recordDeclarator declarator
  refine .bind (ctx.records_expr? d.init declared) fun init => ?_
  have declaring : Records
      (do
        let type := declaredType declared init
        let inBlock ← step (declareName d.name type)
        step (Analysis.remember type)
        return Stmt.declare ⟨type, d.span⟩ d.name declared init inBlock)
      (do
        let type := declaredType declared init
        let inBlock ← declareName d.name type
        Analysis.remember type
        return Stmt.declare ⟨type, d.span⟩ d.name declared init inBlock) :=
    .bind (.step (turns_declareName _ _)) fun _ => .bind (.keep (.remember _)) fun _ => .pure _
  cases declared with
  | none => exact declaring
  | some type =>
    cases init with
    | none => exact declaring
    | some e => exact .bind (.check (ctx.asks_checkCoercion _ _ _)) fun _ => declaring

theorem records_declarators (declared : Option Ty) (ds : List Syntax.Declarator) :
    Records (ctx.recordDeclarators declared ds) (ctx.declarators declared ds) := by
  induction ds with
  | nil => exact .pure _
  | cons d ds ih =>
    unfold recordDeclarators declarators
    exact .bind (ctx.records_declarator declared d) fun _ => .bind ih fun _ => .pure _

theorem records_returned (value : Option Syntax.Expr) :
    Records (ctx.recordReturned value) (ctx.returned value) := by
  unfold recordReturned returned
  refine .bind (ctx.records_expr? value none) fun value => ?_
  exact .bind (.keep fun _ => .refl _) fun _ => .pure _

mutual

theorem records_stmt (s : Syntax.Stmt) : Records (ctx.recordStmt s) (ctx.stmt s) := by
  -- by recursion on the statement, as for expressions
  cases s with
  | expr e =>
    unfold recordStmt stmt
    exact .bind (ctx.records_expr e none) fun _ => .pure _
  | declare type ds =>
    unfold recordStmt stmt
    exact .bind (.check (ctx.asks_resolveType? type)) fun declared => ctx.records_declarators declared ds
  | branch cond thenBody elseBody =>
    unfold recordStmt stmt
    refine .bind (ctx.records_condition cond) fun cond => ?_
    refine .bind (.inBlock (records_stmts thenBody)) fun thenBody => ?_
    cases elseBody with
    | none => exact .bind (.pure _) fun _ => .pure _
    | some body => exact .bind (.map _ (.inBlock (records_stmts body))) fun _ => .pure _
  | whileLoop cond body =>
    unfold recordStmt stmt
    refine .bind (ctx.records_condition cond) fun cond => ?_
    exact .bind (.inBlock (records_stmts body)) fun _ => .pure _
  | forLoop init cond update body =>
    unfold recordStmt stmt
    refine .inBlock ?_
    have rest (init : Option Stmt) : Records
        (do
          let cond ← ctx.recordCondition? cond
          let update ← ctx.recordExprs update
          let body ← Recording.inBlock (ctx.recordStmts body)
          let span := (cond.map Expr.span).getD (.point 0)
          return [Stmt.forLoop (effectInfo span) init cond update body])
        (do
          let cond ← ctx.condition? cond
          let update ← ctx.exprs update
          let body ← Analysis.inBlock (ctx.stmts body)
          let span := (cond.map Expr.span).getD (.point 0)
          return [Stmt.forLoop (effectInfo span) init cond update body]) := by
      refine .bind (ctx.records_condition? cond) fun cond => ?_
      refine .bind (ctx.records_exprs update) fun update => ?_
      exact .bind (.inBlock (records_stmts body)) fun _ => .pure _
    cases init with
    | none => exact rest none
    | some s => exact .bind (records_stmt s) fun ss => rest (some (single ss))
  | forEach type name span items body =>
    unfold recordStmt stmt
    refine .bind (.check (ctx.asks_resolveType? type)) fun declared => ?_
    refine .bind (ctx.records_expr items none) fun items => ?_
    refine .bind (.check (ctx.asks_iteratedType items)) fun item => ?_
    refine .inBlock (.bind (.keep (.declareInBlock _ _)) fun _ => ?_)
    exact .bind (.inBlock (records_stmts body)) fun _ => .pure _
  | block body =>
    unfold recordStmt stmt
    exact .bind (.inBlock (records_stmts body)) fun _ => .pure _
  | returns value =>
    unfold recordStmt stmt
    exact .bind (ctx.records_returned value) fun _ => .pure _
  | importPath path everything span =>
    unfold recordStmt stmt
    cases everything with
    | true => exact .bind (.keep (ctx.keepsNames_importPackage path span)) fun _ => .pure _
    | false => exact .bind (.keep (ctx.keepsNames_importClass path span)) fun _ => .pure _
termination_by sizeOf s

theorem records_stmts (ss : List Syntax.Stmt) : Records (ctx.recordStmts ss) (ctx.stmts ss) := by
  cases ss with
  | nil =>
    unfold recordStmts stmts
    exact .pure _
  | cons s ss =>
    unfold recordStmts stmts
    exact .bind (records_stmt s) fun _ => .bind (records_stmts ss) fun _ => .pure _
termination_by sizeOf ss

end

/-! ## Programs -/

theorem records_program (body : List Syntax.Stmt) : Records (ctx.recordProgram body) (ctx.program body) := by
  unfold recordProgram program
  refine .bind (ctx.records_stmts body) fun body => ?_
  exact .bind (.keep .get) fun s => .pure _

theorem records_setter (body : List Syntax.Stmt) : Records (ctx.recordSetter body) (ctx.setter body) := by
  unfold recordSetter setter
  cases body with
  | nil => exact .check (.fail _ _)
  | cons s rest =>
    cases rest with
    | cons s' rest => cases s <;> exact .check (.fail _ _)
    | nil =>
      cases s with
      | expr target =>
        refine .bind (ctx.records_target target (ctx.records_expr target none) _) fun r => ?_
        exact .bind (.keep .get) fun s => .pure _
      | _ => exact .check (.fail _ _)

/-- The recorded analysis of a program or setter is the analysis, and its moments lead by turns from the environment
that it starts from to the one that it leaves. -/
theorem record_turns (setter : Bool) (body : List Syntax.Stmt) (env : Environment) :
    (ctx.record setter body env).1 = (ctx.analyze setter body env).1
      ∧ (ctx.record setter body env).2.head? = some (ctx.analyze setter body env).2
      ∧ [env] <:+ (ctx.record setter body env).2
      ∧ (ctx.record setter body env).2.IsChain fun later earlier => earlier.Turns later := by
  have records : Records (if setter then ctx.recordSetter body else ctx.recordProgram body)
      (if setter then ctx.setter body else ctx.program body) := by
    split
    · exact ctx.records_setter body
    · exact ctx.records_program body
  have sound := records.sound _ (.start env)
  refine ⟨records.outcome (.start env), ?_, records.keeps (.start env), sound.chain⟩
  exact sound.latest.trans (congrArg (fun a : AnalysisState => some a.env) (records.state (.start env)))

end Context

/-! ## Every moment -/

namespace Environment

instance : Trans (fun later earlier : Environment => earlier.Precedes later)
    (fun later earlier : Environment => earlier.Precedes later)
    (fun later earlier : Environment => earlier.Precedes later) where
  trans h h' := h'.trans h

/-- Turns after turns keep what one turn keeps. -/
theorem wellNamed_of_chain {config : Config} {moments : List Environment} {env : Environment}
    (chain : moments.IsChain fun later earlier => earlier.Turns later) (first : [env] <:+ moments)
    (wf : env.WellNamed config) : ∀ m ∈ moments, m.WellNamed config := by
  obtain ⟨later, rfl⟩ := first
  induction later with
  | nil =>
    intro m hm
    rw [List.mem_singleton.1 hm]
    exact wf
  | cons m later ih =>
    have rest := ih chain.tail
    rw [List.cons_append, List.isChain_cons] at chain
    refine List.forall_mem_cons.2 ⟨?_, rest⟩
    -- there is an environment before this one, the first one if no other
    cases hl : later ++ [env] with
    | nil => simp at hl
    | cons previous earlier =>
      rw [hl] at chain rest
      exact (rest previous List.mem_cons_self).of_turns (chain.1 previous rfl)

end Environment

namespace Compiler

/-- The recorded analysis of a source is the analysis, and its moments lead by turns from the environment that it starts
from to the one that it leaves. -/
theorem record_turns (c : Compiler) (env : Environment) :
    (c.record env).1 = (c.analyze env).1 ∧ (c.record env).2.head? = some (c.analyze env).2
      ∧ [env] <:+ (c.record env).2 ∧ (c.record env).2.IsChain fun later earlier => earlier.Turns later := by
  unfold record analyze
  cases Syntax.parse c.source with
  | error e => exact ⟨rfl, rfl, List.suffix_rfl, .singleton env⟩
  | ok body => exact c.context.record_turns c.isSetter body env

/-- A compiler leaves the environment that its analysis leaves, unless it ran before. -/
theorem run_env (c : Compiler) (env : Environment) :
    (c.run env).2.1 = if c.stage ≠ .unparsed then env else (c.analyze env).2 := by
  unfold run
  split
  · rfl
  · split
    · rename_i analyzed
      rw [analyzed]
    · rename_i analyzed
      rw [analyzed]
      split <;> rfl

/-- What names stand for stays in order in an analysis. -/
theorem wellNamed_record {config : Config} {env : Environment} (c : Compiler) (wf : env.WellNamed config) :
    ∀ m ∈ (c.record env).2, m.WellNamed config := by
  obtain ⟨-, -, first, chain⟩ := c.record_turns env
  exact Environment.wellNamed_of_chain chain first wf

theorem wellNamed_run {config : Config} {env : Environment} (c : Compiler) (wf : env.WellNamed config) :
    (c.run env).2.1.WellNamed config := by
  rw [run_env]
  split
  · exact wf
  · obtain ⟨-, last, -, -⟩ := c.record_turns env
    exact c.wellNamed_record wf _ (List.mem_of_mem_head? last)

end Compiler

theorem Config.wellNamed_after (config : Config) (compilers : List Compiler) :
    (config.after compilers).WellNamed config := by
  have kept (env : Environment) (wf : env.WellNamed config) :
      (compilers.foldl (fun env c => (c.run env).2.1) env).WellNamed config := by
    induction compilers generalizing env with
    | nil => exact wf
    | cons c rest ih => exact ih _ (c.wellNamed_run wf)
  exact kept _ (Environment.wellNamed_ofConfig config)

/-- **Variables and inputs at every moment.** Analyze a source, in an environment that any analyses before have left
which started from a configuration. The moments of the analysis, the latest first, end in the environment that it
leaves, whether it succeeds or fails, and from one to the next a single name changes at most. At each of them no name is
both a variable and an input, and under strong typing or strictness all inputs are those of the configuration. From
then on no variable disappears, and an input disappears only by becoming a variable. -/
theorem Compiler.names_record (config : Config) (before : List Compiler) (c : Compiler) :
    let env := config.after before
    let moments := (c.record env).2
    (c.record env).1 = (c.analyze env).1
      ∧ moments.head? = some (c.analyze env).2 ∧ moments.getLast? = some env
      ∧ (moments.IsChain fun later earlier => earlier.Turns later)
      ∧ (∀ m ∈ moments, (∀ name, ¬ (m.vars.has name ∧ m.inputs.has name))
        ∧ (config.strong ∨ config.strict → ∀ name, m.inputs.has name → config.inputs.has name))
      ∧ moments.Pairwise fun later earlier =>
        (∀ name, earlier.vars.has name → later.vars.has name)
        ∧ ∀ name, earlier.inputs.has name → later.inputs.has name ∨ later.vars.has name := by
  intro env moments
  obtain ⟨same, last, first, chain⟩ := c.record_turns env
  refine ⟨same, last, ?_, chain, fun m hm => ?_, ?_⟩
  · obtain ⟨later, eq⟩ := first
    show (c.record env).2.getLast? = some env
    rw [← eq, List.getLast?_append]
    rfl
  · have wf := c.wellNamed_record (config.wellNamed_after before) m hm
    refine ⟨fun name both => ?_, wf.supplied⟩
    rcases wf.apart name with no | no
    · simp [Table.has, no] at both
    · simp [Table.has, no] at both
  · -- what one turn does to the names is transitive, so that the chain gives every pair
    have precedes : moments.IsChain fun later earlier => earlier.Precedes later :=
      chain.imp fun _ _ turn => turn.precedes
    exact precedes.pairwise.imp fun h => ⟨h.vars, h.inputs⟩

/-- A name that is read before it is declared: an input first, and then a variable. -/
example :
    let engine : Engine := ⟨.bare, .builtin, [], .default⟩
    let moments := ((engine.compiler "x; int x = 1;" true false).record (.ofConfig .default)).2
    moments.map (fun m => (m.vars.names, m.inputs.names))
      = [(["x"], []), (["x"], []), (["x"], []), ([], ["x"]), ([], ["x"]), ([], ["x"]), ([], [])] := by
  decide +kernel

end HostExpr
