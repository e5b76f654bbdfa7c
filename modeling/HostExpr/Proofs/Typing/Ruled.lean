import HostExpr.Proofs.Grammar.Loops
import HostExpr.Proofs.Typing.Program
import HostExpr.Proofs.Typing.Scoped

/-!
# Analysis obeys the typing rules

Every part of a compiled program obeys its typing rule, among the names that are known where it stands: the induction
over the source, in which the operands come first. So a compiled program is well typed. What a setter stores into is the
target of a plain assignment of a value of which nothing is known.
-/

namespace HostExpr

namespace Context

open Typed Analysis

variable {ctx : Context} {config : Config} {a₀ a : AnalysisState}

/-! ## Expressions -/

mutual

/-- The parts of an expression obey their rules. -/
theorem ruled_expr (e : Syntax.Expr) (hint : Option Ty) {a : AnalysisState} (under : a.env.Under config) :
    Yields (ctx.expr e hint) a fun r b => ctx.Ruled config a r.parts b := by
  cases e with
  | literal span value =>
    unfold expr
    exact .pure ((Ruled.refl under).node rfl trivial)
  | ident span name =>
    unfold expr
    exact ruled_ident under name span
  | field span receiver name =>
    unfold expr
    refine .get ?_
    split
    · exact ruled_propertyChain (ruled_classNode under ctx _ span) span _
    · exact .bind fun receiver c made => ruled_property (ruled_expr _ none under made) name span
  | methodCall span receiver name args =>
    unfold expr
    refine .bind fun receiver c made => .bind fun args d rest => ?_
    have first := ruled_expr _ none under made
    exact ruled_methodCall (first.trans (ruled_exprs _ first.under rest)) name span
  | call span name args =>
    unfold expr
    exact .bind fun args c made => ruled_callNamed (ruled_exprs _ under made) name span
  | index span receiver position =>
    unfold expr
    refine .bind fun receiver c made => .bind fun position d rest => ?_
    have first := ruled_expr _ none under made
    exact ruled_index (first.trans (ruled_expr _ none first.under rest)) span
  | assign span target op value =>
    cases op with
    | plain =>
      unfold expr
      refine .bind fun value c made => .bind fun assigned d rest => ?_
      have first := ruled_expr _ none under made
      obtain ⟨second, takes⟩ := ruled_assignedTarget first.under _ _
        (ruled_expr target none first.under) rest
      -- the value was analyzed before the target
      have swapped : assigned.1.parts ++ value.parts ⊆ value.parts ++ assigned.1.parts :=
        List.append_subset.2 ⟨List.subset_append_right _ _, List.subset_append_left _ _⟩
      exact ruled_plainAssignment ((first.trans second).subset swapped) takes span
    | compound op =>
      unfold expr
      refine .bind fun target c made => .bind fun value d rest => ?_
      have first := ruled_expr _ none under made
      exact ruled_compoundAssignment (first.trans (ruled_expr _ none first.under rest)) op span
  | arith span op left right =>
    unfold expr
    refine .bind fun left c made => .bind fun right d rest => .bind fun type d' typed => .pure ?_
    have first := ruled_expr _ none under made
    have operands := first.trans (ruled_expr _ none first.under rest)
    exact (operands.checked (ctx.asks_arithType op _ _ span) typed).node (operands.answers typed) trivial
  | logic span op left right =>
    unfold expr
    refine .bind fun left c made => .bind fun _ c' checked => ?_
    refine .bind fun right d rest => .bind fun _ d' checked' => .pure ?_
    have first := (ruled_expr _ none under made).checked (ctx.asks_checkCondition _) checked
    have operands := first.trans (ruled_expr _ none first.under rest)
    exact (operands.checked (ctx.asks_checkCondition _) checked').node rfl trivial
  | compare span op left right =>
    unfold expr
    refine .bind fun left c made => .bind fun right d rest => .bind fun _ d' checked => .pure ?_
    have first := ruled_expr _ none under made
    have operands := first.trans (ruled_expr _ none first.under rest)
    exact (operands.checked (ctx.asks_checkComparison op _ _ span) checked).node rfl trivial
  | unary span op operand =>
    unfold expr
    refine .bind fun operand c made => ?_
    have node {b : AnalysisState} (kept : ctx.Ruled config a operand.parts b) : Yields (do
        let type ← ctx.unaryType op operand.type span
        return Expr.unary ⟨type, span⟩ op operand) b fun r b => ctx.Ruled config a r.parts b := by
      refine .bind fun type d typed => .pure ?_
      exact (kept.checked (ctx.asks_unaryType op _ span) typed).node (kept.answers typed) trivial
    have operand := ruled_expr _ none under made
    cases op with
    | not => exact .bind fun _ d checked => node (operand.checked (ctx.asks_checkCondition _) checked)
    | neg => exact node operand
  | step span op target =>
    unfold expr
    exact .bind fun target c made => ruled_stepNode (ruled_expr _ none under made) op span
  | cast span type operand =>
    unfold expr
    refine .bind fun type c resolved => .bind fun operand d made => .bind fun _ d' checked => .pure ?_
    have given : ctx.Ruled config a [] c := (Ruled.refl under).checked (ctx.asks_resolveType _) resolved
    have operand := given.trans (ruled_expr _ (some type) given.under made)
    exact (operand.checked (ctx.asks_checkCast _ type span) checked).node rfl trivial
  | conditional span cond thenBranch elseBranch =>
    unfold expr
    refine .bind fun cond c made => .bind fun _ c' checked => ?_
    refine .bind fun first d rest => .bind fun second d' last => .pure ?_
    have cond := (ruled_expr _ none under made).checked (ctx.asks_checkCondition _) checked
    have first := cond.trans (ruled_expr _ hint cond.under rest)
    exact (first.trans (ruled_expr _ hint first.under last)).node rfl trivial
  | construct span type args =>
    unfold expr
    refine .bind fun type c resolved => .bind fun args d made => ?_
    have given : ctx.Ruled config a [] c := (Ruled.refl under).checked (ctx.asks_resolveType _) resolved
    exact ruled_construct (given.trans (ruled_exprs _ given.under made)) type span
  | newArray span type items =>
    unfold expr
    refine .bind fun type c resolved => .bind fun items d made => .pure ?_
    have given : ctx.Ruled config a [] c := (Ruled.refl under).checked (ctx.asks_resolveType _) resolved
    exact (given.trans (ruled_arrayItems _ _ given.under made)).node rfl trivial
  | newSized span type length =>
    unfold expr
    refine .bind fun item c resolved => .bind fun length d made => .bind fun _ d' checked => .pure ?_
    have given : ctx.Ruled config a [] c := (Ruled.refl under).checked (ctx.asks_resolveType _) resolved
    have operand := given.trans (ruled_expr _ none given.under made)
    exact (operand.checked (ctx.asks_checkLength length) checked).node rfl trivial
  | inlineArray span items =>
    unfold expr
    split
    · exact .bind fun items c made => .pure ((ruled_arrayItems _ _ under made).node rfl trivial)
    · exact .bind fun items c made => .pure ((ruled_exprs _ under made).node rfl trivial)
  | inlineList span items =>
    unfold expr
    exact .bind fun items c made => ruled_inlineList (ruled_exprs _ under made) span
  | inlineMap span entries =>
    unfold expr
    exact .bind fun entries c made => ruled_inlineMap (ruled_exprEntries _ under made) span
termination_by sizeOf e

theorem ruled_exprs (es : List Syntax.Expr) {a : AnalysisState} (under : a.env.Under config) :
    Yields (ctx.exprs es) a fun rs b => ctx.Ruled config a (Expr.partsAll rs) b := by
  cases es with
  | nil =>
    unfold exprs
    exact .pure (.refl under)
  | cons e es =>
    unfold exprs
    refine .bind fun r c made => .bind fun rs d rest => .pure ?_
    rw [Expr.partsAll_cons]
    have first := ruled_expr e none under made
    exact first.trans (ruled_exprs es first.under rest)
termination_by sizeOf es

theorem ruled_arrayItems (item : Ty) (es : List Syntax.Expr) {a : AnalysisState} (under : a.env.Under config) :
    Yields (ctx.arrayItems item es) a fun rs b => ctx.Ruled config a (Expr.partsAll rs) b := by
  cases es with
  | nil =>
    unfold arrayItems
    exact .pure (.refl under)
  | cons e es =>
    unfold arrayItems
    refine .bind fun r c made => .bind fun _ c' checked => .bind fun rs d rest => .pure ?_
    rw [Expr.partsAll_cons]
    have first := (ruled_expr e (some item) under made).checked (ctx.asks_checkCoercion _ item _) checked
    exact first.trans (ruled_arrayItems item es first.under rest)
termination_by sizeOf es

theorem ruled_exprEntries (es : List (Syntax.Expr × Syntax.Expr)) {a : AnalysisState} (under : a.env.Under config) :
    Yields (ctx.exprEntries es) a fun rs b => ctx.Ruled config a (Expr.partsEntries rs) b := by
  match es with
  | [] =>
    unfold exprEntries
    exact .pure (.refl under)
  | (key, value) :: rest =>
    unfold exprEntries
    refine .bind fun k c made => .bind fun v d made' => .bind fun rs d' made'' => .pure ?_
    rw [Expr.partsEntries_cons]
    have first := ruled_expr key none under made
    have second := first.trans (ruled_expr value none first.under made')
    exact second.trans (ruled_exprEntries rest second.under made'')
termination_by sizeOf es

end

/-! ## Statements -/

/-- An expression in a statement. -/
theorem wellTyped_expr (e : Syntax.Expr) (hint : Option Ty) (under : a.env.Under config) :
    Yields (ctx.expr e hint) a fun r b => ctx.Ruled config a [] b ∧ ctx.WellTyped config b a.scopes r := by
  intro r b made
  have ruled := ruled_expr e hint under made
  exact ⟨ruled.subset (List.nil_subset _), ruled.obeys⟩

theorem wellTyped_expr? (e : Option Syntax.Expr) (hint : Option Ty) (under : a.env.Under config) :
    Yields (ctx.expr? e hint) a fun r b => ctx.Ruled config a [] b ∧ ∀ e' ∈ r, ctx.WellTyped config b a.scopes e' := by
  cases e with
  | none => exact .pure ⟨.refl under, fun e' he => by cases he⟩
  | some e =>
    refine .bind fun r b made => .pure ?_
    obtain ⟨kept, typed⟩ := wellTyped_expr e hint under made
    refine ⟨kept, fun e' he => ?_⟩
    cases he
    exact typed

theorem wellTyped_condition (e : Syntax.Expr) (under : a.env.Under config) :
    Yields (ctx.condition e) a fun r b => ctx.Ruled config a [] b ∧ ctx.WellTyped config b a.scopes r := by
  unfold condition
  refine .bind fun cond c made => .bind fun _ d checked => .pure ?_
  rw [(ctx.asks_checkCondition cond).eq_of_ok checked]
  exact wellTyped_expr e none under made

theorem wellTyped_condition? (e : Option Syntax.Expr) (under : a.env.Under config) :
    Yields (ctx.condition? e) a fun r b => ctx.Ruled config a [] b ∧ ∀ e' ∈ r, ctx.WellTyped config b a.scopes e' := by
  cases e with
  | none => exact .pure ⟨.refl under, fun e' he => by cases he⟩
  | some e =>
    refine .bind fun r b made => .pure ?_
    obtain ⟨kept, typed⟩ := wellTyped_condition e under made
    refine ⟨kept, fun e' he => ?_⟩
    cases he
    exact typed

theorem wellTyped_exprs (es : List Syntax.Expr) (under : a.env.Under config) :
    Yields (ctx.exprs es) a fun rs b => ctx.Ruled config a [] b ∧ ∀ e ∈ rs, ctx.WellTyped config b a.scopes e := by
  intro rs b made
  have ruled := ruled_exprs es under made
  refine ⟨ruled.subset (List.nil_subset _), fun e he n hn => ruled.obeys n ?_⟩
  exact Expr.mem_partsAll.2 ⟨e, he, hn⟩

/-- From the first state to the second one an analysis makes well-typed statements, in the scopes that the first one
has open. -/
structure Followed (ctx : Context) (config : Config) (a : AnalysisState) (ss : List Stmt) (b : AnalysisState) : Prop where
  under : b.env.Under config
  scopes : b.scopes = a.scopes.followingAll ss
  before : a.Before b
  typed : ctx.StmtsTyped config b a.scopes ss

namespace Followed

variable {b c : AnalysisState} {ss ss' : List Stmt}

/-- No statement. -/
theorem of_ruled (kept : ctx.Ruled config a [] b) : ctx.Followed config a [] b :=
  ⟨kept.under, kept.scopes, kept.before, trivial⟩

theorem nil (under : a.env.Under config) : ctx.Followed config a [] a := .of_ruled (.refl under)

/-- Statements one after the other. -/
theorem append (h : ctx.Followed config a ss b) (h' : ctx.Followed config b ss' c) :
    ctx.Followed config a (ss ++ ss') c where
  under := h'.under
  scopes := by rw [h'.scopes, h.scopes, Scopes.followingAll_append]
  before := h.before.trans h'.before
  typed := by
    refine (StmtsTyped.mono h'.before ss h.typed).append ?_
    rw [← h.scopes]
    exact h'.typed

/-- A statement that declares nothing. -/
theorem single {s : Stmt} (kept : ctx.Ruled config a [] b) (typed : ctx.StmtTyped config b a.scopes s)
    (plain : a.scopes.following s = a.scopes) : ctx.Followed config a [s] b where
  under := kept.under
  scopes := by
    show _ = a.scopes.following s
    rw [plain, kept.scopes]
  before := kept.before
  typed := ⟨typed, trivial⟩

end Followed

/-! ### Blocks -/

theorem under_noteBlockNames {env : Environment} (names : List String) (under : env.Under config) :
    (names.foldl Environment.noteBlockName env).Under config := by
  induction names generalizing env with
  | nil => exact under
  | cons n names ih =>
    refine ih ?_
    unfold Environment.noteBlockName
    split
    · exact under
    · exact ⟨under.strong, under.strict, under.context⟩

theorem grows_noteBlockNames (env : Environment) (names : List String) :
    env.Grows (names.foldl Environment.noteBlockName env) := by
  induction names generalizing env with
  | nil => exact .refl env
  | cons n names ih =>
    refine Environment.Grows.trans (.of_eq ?_ ?_) (ih _)
    all_goals
      unfold Environment.noteBlockName
      split <;> rfl

/-- The end of a block opens the scope around it, and more may be known. -/
theorem closed_apply (under : a.env.Under config) :
    a.closed.env.Under config ∧ a.Before a.closed ∧ a.closed.scopes = a.scopes.popped := by
  obtain ⟨env, ⟨frames⟩, site, returns⟩ := a
  cases frames with
  | nil => exact ⟨under, .refl _, rfl⟩
  | cons frame rest => exact ⟨under_noteBlockNames _ under, ⟨grows_noteBlockNames _ _, fun _ ht => ht⟩, rfl⟩

/-- Behind a block the scopes are those before it, and more may be known. -/
theorem ruled_inBlock {α : Type} {x : Analysis α} {Q : α → AnalysisState → Prop} (under : a.env.Under config)
    (h : a.opened.env.Under config → Yields x a.opened fun r c =>
      c.env.Under config ∧ a.opened.Before c ∧ c.scopes.popped = a.scopes ∧ ∀ d, c.Before d → Q r d) :
    Yields (inBlock x) a fun r b => ctx.Ruled config a [] b ∧ Q r b := by
  intro r b hr
  rw [inBlock_apply] at hr
  obtain ⟨outcome, rfl⟩ := Prod.mk.inj hr
  obtain ⟨under', before, scopes, gives⟩ := h under (Prod.ext outcome rfl)
  obtain ⟨under'', later, popped⟩ := closed_apply under'
  have whole := before.trans later
  exact ⟨⟨under'', popped.trans scopes, ⟨whole.grows, whole.returns⟩, fun e he => by cases he⟩, gives _ later⟩

/-- In whatever open block, the typed forms of statements in a row are well typed. -/
def TypesRow (ctx : Context) (config : Config) (body : List Syntax.Stmt) : Prop :=
  ∀ a, a.env.Under config → a.scopes.isEmpty = false →
    Yields (ctx.stmts body) a fun ss b => ctx.Followed config a ss b

/-- Statements in a block. -/
theorem typed_block {body : List Syntax.Stmt} (under : a.env.Under config) (h : ctx.TypesRow config body) :
    Yields (inBlock (ctx.stmts body)) a fun ss b =>
      ctx.Ruled config a [] b ∧ ctx.StmtsTyped config b a.scopes.push ss := by
  refine ruled_inBlock under fun under ss c made => ?_
  have inner := h a.opened under rfl made
  refine ⟨inner.under, inner.before, ?_, fun d later => StmtsTyped.mono later ss inner.typed⟩
  rw [inner.scopes, Scopes.popped_followingAll]
  rfl

/-! ### Declarations -/

/-- A declaration in the innermost block. -/
theorem ruled_declareInBlock {name : String} {type : Ty} (under : a.env.Under config) :
    Yields (declareInBlock name type) a fun _ b => b.env.Under config ∧ a.Before b
      ∧ b.scopes = a.scopes.declaring name type := by
  intro u b declared
  have scopes := declareInBlock_scopes name type a
  rw [declareInBlock_apply] at declared
  cases declared
  refine ⟨?_, ?_, scopes⟩
  all_goals
    unfold AnalysisState.declaring
    split
  · exact under
  · exact under
  · exact ⟨.refl _, fun _ ht => ht⟩
  · exact .refl a

/-- A declaration in an open block. -/
theorem ruled_declareName {name : String} {type : Ty} (under : a.env.Under config) (inside : a.scopes.isEmpty = false) :
    Yields (declareName name type) a fun inBlock b => inBlock = true ∧ b.env.Under config ∧ a.Before b
      ∧ b.scopes = a.scopes.declaring name type := by
  unfold declareName
  refine .get ?_
  rw [if_neg (by simp [inside])]
  exact .bind fun _ c declared => .pure ⟨rfl, ruled_declareInBlock under declared⟩

/-- What comes before the name is declared: the initial value, which may have to fit. -/
theorem wellTyped_declarator (declared : Option Ty) (d : Syntax.Declarator) (under : a.env.Under config)
    {Q : Stmt → AnalysisState → Prop}
    (h : ∀ (init : Option Expr) (b : AnalysisState), ctx.Ruled config a [] b →
      (∀ e ∈ init, ctx.WellTyped config b a.scopes e) → Yields (do
        let inBlock ← declareName d.name (declaredType declared init)
        Analysis.remember (declaredType declared init)
        return Stmt.declare ⟨declaredType declared init, d.span⟩ d.name declared init inBlock) b Q) :
    Yields (ctx.declarator declared d) a Q := by
  rw [declarator_eq]
  refine .bind fun init c analyzed => .bind fun _ c' checked => ?_
  obtain ⟨kept, typed⟩ := wellTyped_expr? d.init declared under analyzed
  rw [(ctx.asks_checkInitial declared init).eq_of_ok checked]
  exact h init c kept typed

/-- A declared name in an open block. -/
theorem typed_declarator (declared : Option Ty) (d : Syntax.Declarator) (under : a.env.Under config)
    (inside : a.scopes.isEmpty = false) :
    Yields (ctx.declarator declared d) a fun s b =>
      ctx.Followed config a [s] b ∧ ∀ info body, s ≠ .block info body := by
  refine wellTyped_declarator declared d under fun init c kept typed => ?_
  refine .bind fun inBlock c' named => .bind fun _ d' remembered => .pure ⟨?_, fun _ _ => Stmt.noConfusion⟩
  have inside' : c.scopes.isEmpty = false := by rw [kept.scopes, inside]
  obtain ⟨rfl, under', before, scopes⟩ := ruled_declareName kept.under inside' named
  have last : ctx.Ruled config c' [] d' := (Ruled.refl under').remembered remembered
  have later : c.Before d' := before.trans last.before
  refine ⟨last.under, ?_, kept.before.trans later, ⟨?_, trivial⟩⟩
  · rw [last.scopes, scopes, kept.scopes]
    rfl
  · exact ⟨fun e he => (typed e he).mono later, rfl, rfl, inside⟩

/-- Names declared one after the other in an open block. -/
theorem typed_declarators (declared : Option Ty) (ds : List Syntax.Declarator) (under : a.env.Under config)
    (inside : a.scopes.isEmpty = false) :
    Yields (ctx.declarators declared ds) a fun ss b =>
      ctx.Followed config a ss b ∧ ∀ s ∈ ss, ∀ info body, s ≠ .block info body := by
  induction ds generalizing a with
  | nil => exact .pure ⟨.nil under, fun s hs => by cases hs⟩
  | cons d ds ih =>
    unfold declarators
    refine .bind fun s c made => .bind fun ss c' rest => .pure ?_
    obtain ⟨first, plain⟩ := typed_declarator declared d under inside made
    have inside' : c.scopes.isEmpty = false := by
      rw [first.scopes, Scopes.isEmpty_followingAll, inside]
    obtain ⟨others, plains⟩ := ih first.under inside' rest
    exact ⟨first.append others, List.forall_mem_cons.2 ⟨plain, plains⟩⟩

/-! ### All statements -/

theorem typed_returned (value : Option Syntax.Expr) (under : a.env.Under config) :
    Yields (ctx.returned value) a fun s b => ctx.Followed config a [s] b := by
  unfold returned
  refine .bind fun value c made => .bind fun _ d noted => .pure ?_
  obtain ⟨kept, typed⟩ := wellTyped_expr? _ none under made
  have info_type : ((value.map Expr.info).getD ⟨.null, .point 0⟩).type = (value.map Expr.type).getD .null := by
    cases value <;> rfl
  cases noted
  have later : c.Before { c with returns := ((value.map Expr.info).getD ⟨.null, .point 0⟩).type :: c.returns } :=
    ⟨.refl _, List.subset_cons_self _ _⟩
  refine .single (kept.followed ⟨kept.under, rfl, later, fun e he => by cases he⟩) ?_ rfl
  exact ⟨fun e he => (typed e he).mono later, info_type, List.mem_cons_self⟩

theorem ruled_importPackage (package : String) (span : Span) (under : a.env.Under config) :
    Yields (ctx.importPackage package span) a fun _ b => ctx.Ruled config a [] b := by
  unfold importPackage
  split
  · exact .fail _ _
  · have keeps (found : List ClassRef) (env : Environment) (under : env.Under config) :
        (found.foldl (fun env c => env.addImport (ctx.classes.name c) (.cls c)) env).Under config
          ∧ env.Grows (found.foldl (fun env c => env.addImport (ctx.classes.name c) (.cls c)) env) := by
      induction found generalizing env with
      | nil => exact ⟨under, .refl env⟩
      | cons c found ih =>
        obtain ⟨kept, grows⟩ := ih (env.addImport (ctx.classes.name c) (.cls c)) ⟨under.strong, under.strict, under.context⟩
        have first : env.Grows (env.addImport (ctx.classes.name c) (.cls c)) := .of_eq rfl rfl
        exact ⟨kept, first.trans grows⟩
    intro u b imported
    exact (Ruled.refl under).modified (fun h => (keeps _ a.env h).1) (keeps _ a.env under).2 imported

theorem ruled_importClass (path : String) (span : Span) (under : a.env.Under config) :
    Yields (ctx.importClass path span) a fun _ b => ctx.Ruled config a [] b := by
  unfold importClass
  split
  · intro u b imported
    exact (Ruled.refl under).modified (fun h => ⟨h.strong, h.strict, h.context⟩) (.of_eq rfl rfl) imported
  · exact .fail _ _

/-- The items of a loop are of the type that goes with the type of what it runs over. -/
theorem yields_iteratedType (items : Expr) :
    Yields (ctx.iteratedType items) a fun t _ => t = items.type.iterated := by
  unfold iteratedType Ty.iterated
  split
  case h_7 => exact .fail _ _
  all_goals
    rename_i same
    rw [same]
    exact .pure rfl

/-- One of several statements, or one as it is, at the start of a `for` statement. -/
theorem Followed.start {b : AnalysisState} {ss : List Stmt} (h : ctx.Followed config a ss b)
    (shape : ∀ t ∈ ss, ∀ info body, t ≠ .block info body) :
    ctx.InitTyped config b a.scopes (some (Context.single ss)) ∧
      b.scopes = a.scopes.followingInit (some (Context.single ss)) := by
  match ss, h, shape with
  | [], h, _ => exact ⟨h.typed, h.scopes⟩
  | [t], h, shape =>
    have plain := shape t List.mem_cons_self
    refine ⟨(initTyped_iff plain).2 h.typed.1, h.scopes.trans ?_⟩
    cases t with
    | block info body => exact absurd rfl (plain info body)
    | _ => rfl
  | _ :: _ :: _, h, _ => exact ⟨h.typed, h.scopes⟩

/-- An expression as a statement. -/
theorem typed_exprStmt (e : Syntax.Expr) (under : a.env.Under config) :
    Yields (ctx.stmt (.expr e)) a fun ss b =>
      ctx.Followed config a ss b ∧ ∀ s ∈ ss, ∀ info body, s ≠ .block info body := by
  unfold stmt
  refine .bind fun e c made => .pure ⟨?_, List.forall_mem_singleton.2 fun _ _ => Stmt.noConfusion⟩
  obtain ⟨kept, typed⟩ := wellTyped_expr _ none under made
  exact .single kept typed rfl

/-- A declaration in an open block. -/
theorem typed_declareStmt (type : Option Syntax.TypeExpr) (ds : List Syntax.Declarator) (under : a.env.Under config)
    (inside : a.scopes.isEmpty = false) :
    Yields (ctx.stmt (.declare type ds)) a fun ss b =>
      ctx.Followed config a ss b ∧ ∀ s ∈ ss, ∀ info body, s ≠ .block info body := by
  unfold stmt
  refine .bind fun declared c resolved => ?_
  rw [(ctx.asks_resolveType? type).eq_of_ok resolved]
  exact typed_declarators declared ds under inside

/-- The start of a `for` statement. -/
theorem typed_start {s : Syntax.Stmt} (hg : Syntax.StartsLoop (some s)) (under : a.env.Under config)
    (inside : a.scopes.isEmpty = false) :
    Yields (ctx.stmt s) a fun ss b => b.env.Under config ∧ a.Before b ∧
      ctx.InitTyped config b a.scopes (some (Context.single ss)) ∧
      b.scopes = a.scopes.followingInit (some (Context.single ss)) := by
  have started : Yields (ctx.stmt s) a fun ss b =>
      ctx.Followed config a ss b ∧ ∀ s ∈ ss, ∀ info body, s ≠ .block info body := by
    cases s with
    | expr e => exact typed_exprStmt e under
    | declare type ds => exact typed_declareStmt type ds under inside
    | _ => cases hg
  intro ss b made
  obtain ⟨followed, plain⟩ := started made
  exact ⟨followed.under, followed.before, followed.start plain⟩

/-- A single statement for which a block is opened. -/
theorem typed_inBlock {x : Analysis (List Stmt)} (under : a.env.Under config)
    (h : a.opened.env.Under config → Yields x a.opened fun ss c =>
      c.env.Under config ∧ a.opened.Before c ∧ c.scopes.popped = a.scopes ∧
        ∃ s, ss = [s] ∧ ctx.StmtTyped config c a.scopes s ∧ a.scopes.following s = a.scopes) :
    Yields (inBlock x) a fun ss b => ctx.Followed config a ss b := by
  intro ss b made
  obtain ⟨kept, s, rfl, typed, plain⟩ := ruled_inBlock (Q := fun ss e => ∃ s, ss = [s] ∧
    ctx.StmtTyped config e a.scopes s ∧ a.scopes.following s = a.scopes) under (fun under ss c made => by
      obtain ⟨under', before, scopes, s, rfl, typed, plain⟩ := h under made
      exact ⟨under', before, scopes, fun d later => ⟨s, rfl, StmtTyped.mono later s typed, plain⟩⟩) made
  exact .single kept typed plain

theorem typed_branchStmt {cond : Syntax.Expr} {thenBody : List Syntax.Stmt} {elseBody : Option (List Syntax.Stmt)}
    (yes : ctx.TypesRow config thenBody) (no : ∀ body ∈ elseBody, ctx.TypesRow config body)
    (under : a.env.Under config) :
    Yields (ctx.stmt (.branch cond thenBody elseBody)) a fun ss b => ctx.Followed config a ss b := by
  unfold stmt
  refine .bind fun cond c made => .bind fun thenBody d first => ?_
  obtain ⟨kept, typed⟩ := wellTyped_condition _ under made
  obtain ⟨kept', rows⟩ := typed_block kept.under yes first
  have whole := kept.followed kept'
  rw [kept.scopes] at rows
  cases elseBody with
  | none => exact .pure (.single whole ⟨rfl, typed.mono kept'.before, rows, trivial⟩ rfl)
  | some body =>
    refine .bind fun elseBody d' last => .pure ?_
    obtain ⟨body', analyzed, rfl⟩ := map_ok last
    obtain ⟨kept'', rows'⟩ := typed_block whole.under (no body rfl) analyzed
    rw [whole.scopes] at rows'
    refine .single (whole.followed kept'') ?_ rfl
    -- what is typed early stays typed: more is known behind the second branch
    exact ⟨rfl, typed.mono (kept'.before.trans kept''.before), StmtsTyped.mono kept''.before _ rows, rows'⟩

/-- A `for` statement behind its start, in the block of the loop. -/
theorem typed_loopParts (init : Option Stmt) {cond : Option Syntax.Expr} {update : List Syntax.Expr}
    {body : List Syntax.Stmt} (row : ctx.TypesRow config body) {c : AnalysisState} (under : c.env.Under config)
    (before : a.opened.Before c) (first : ctx.InitTyped config c a.scopes.push init)
    (scopes : c.scopes = a.scopes.push.followingInit init) :
    Yields (ctx.loopParts init cond update body) c
      fun ss d => d.env.Under config ∧ a.opened.Before d ∧ d.scopes.popped = a.scopes
        ∧ ∃ s, ss = [s] ∧ ctx.StmtTyped config d a.scopes s ∧ a.scopes.following s = a.scopes := by
  unfold loopParts
  refine .bind fun cond d made => .bind fun update d' made' => .bind fun body d'' made'' => .pure ?_
  obtain ⟨kept, conds⟩ := wellTyped_condition? _ under made
  obtain ⟨kept', updates⟩ := wellTyped_exprs _ kept.under made'
  obtain ⟨kept'', rows⟩ := typed_block kept'.under row made''
  rw [kept'.scopes, kept.scopes, scopes] at rows
  rw [kept.scopes, scopes] at updates
  rw [scopes] at conds
  -- condition, updates and body follow each other, and types that hold early go on to hold
  have whole := (kept.followed kept').followed kept''
  refine ⟨whole.under, before.trans whole.before, ?_, _, rfl, ?_, rfl⟩
  · rw [whole.scopes, scopes, Scopes.popped_followingInit]
    rfl
  · exact ⟨rfl, InitTyped.mono whole.before _ first, fun x hx => (conds x hx).mono (kept'.before.trans kept''.before),
      fun x hx => (updates x hx).mono kept''.before, rows⟩

theorem typed_forStmt {init : Option Syntax.Stmt} {cond : Option Syntax.Expr} {update : List Syntax.Expr}
    {body : List Syntax.Stmt} (hg : Syntax.StartsLoop init) (row : ctx.TypesRow config body)
    (under : a.env.Under config) :
    Yields (ctx.stmt (.forLoop init cond update body)) a fun ss b => ctx.Followed config a ss b := by
  cases init with
  | none =>
    rw [stmt_forLoop_none]
    exact typed_inBlock under fun under => typed_loopParts none row under (.refl _) trivial rfl
  | some s =>
    rw [stmt_forLoop_some]
    refine typed_inBlock under fun under => .bind fun ts c made => ?_
    obtain ⟨under', before, first, scopes⟩ := typed_start hg under rfl made
    exact typed_loopParts (some (Context.single ts)) row under' before first scopes

/-- The name of a loop over items stands in a block of its own, in which the items are not. -/
theorem typed_forEachStmt {type : Option Syntax.TypeExpr} {name : String} {span : Span} {items : Syntax.Expr}
    {body : List Syntax.Stmt} (row : ctx.TypesRow config body) (under : a.env.Under config) :
    Yields (ctx.stmt (.forEach type name span items body)) a fun ss b => ctx.Followed config a ss b := by
  unfold stmt
  refine .bind fun declared c resolved => .bind fun items d made => .bind fun item d' typed => ?_
  rw [(ctx.asks_resolveType? type).eq_of_ok resolved] at made
  obtain ⟨kept, items_typed⟩ := wellTyped_expr _ none under made
  obtain rfl := yields_iteratedType items typed
  rw [(ctx.asks_iteratedType items).eq_of_ok typed]
  -- the loop opens a block for its variable, and its body opens another within
  have blocked : Yields (Analysis.inBlock do
      Analysis.declareInBlock name (declared.getD items.type.iterated)
      let body ← Analysis.inBlock (ctx.stmts body)
      return [Stmt.forEach (effectInfo span) name declared items body]) d
      fun ss b => ctx.Followed config d ss b := by
    refine typed_inBlock kept.under fun under => .bind fun _ e named => .bind fun body e' made' => .pure ?_
    obtain ⟨under', before, scopes⟩ := ruled_declareInBlock under named
    obtain ⟨kept', rows⟩ := typed_block under' row made'
    have later : d.opened.Before e' := before.trans kept'.before
    rw [scopes] at rows
    refine ⟨kept'.under, later, ?_, _, rfl, ?_, rfl⟩
    · rw [kept'.scopes, scopes, Scopes.popped_declaring]
      rfl
    · rw [kept.scopes]
      exact ⟨rfl, fun n hn => (items_typed n hn).mono ⟨later.grows, later.returns⟩, by rw [← kept.scopes]; exact rows⟩
  intro ss b made
  exact (Followed.of_ruled kept).append (blocked made)

mutual

/-- The typed form of a statement is well typed, if it is no declaration at the top level. -/
theorem typed_stmt (s : Syntax.Stmt) (hg : s.Grammatical) (a : AnalysisState) (under : a.env.Under config)
    (inside : a.scopes.isEmpty = false ∨ ∀ type ds, s ≠ .declare type ds) :
    Yields (ctx.stmt s) a fun ss b => ctx.Followed config a ss b := by
  cases s with
  | expr e => exact fun ss b made => (typed_exprStmt e under made).1
  | declare type ds =>
    exact fun ss b made => (typed_declareStmt type ds under (inside.resolve_right fun h => h type ds rfl) made).1
  | branch cond thenBody elseBody =>
    unfold Syntax.Stmt.Grammatical at hg
    refine typed_branchStmt (typed_stmts _ hg.1) (fun body else_body => ?_) under
    cases else_body
    exact typed_stmts body hg.2
  | whileLoop cond body =>
    unfold stmt
    refine .bind fun cond c made => .bind fun body d rest => .pure ?_
    obtain ⟨kept, typed⟩ := wellTyped_condition _ under made
    obtain ⟨kept', rows⟩ := typed_block kept.under (typed_stmts _ hg) rest
    rw [kept.scopes] at rows
    exact .single (kept.followed kept') ⟨rfl, typed.mono kept'.before, rows⟩ rfl
  | forLoop init cond update body =>
    unfold Syntax.Stmt.Grammatical at hg
    exact typed_forStmt hg.1 (typed_stmts _ hg.2) under
  | forEach type name span items body => exact typed_forEachStmt (typed_stmts _ hg) under
  | block body =>
    unfold stmt
    refine .bind fun body d made => .pure ?_
    obtain ⟨kept, rows⟩ := typed_block under (typed_stmts _ hg) made
    exact .single kept ⟨rfl, rows⟩ rfl
  | returns value =>
    unfold stmt
    exact .bind fun s c made => .pure (typed_returned value under made)
  | importPath path everything span =>
    unfold stmt
    cases everything with
    | true => exact .bind fun _ c imported => .pure (.single (ruled_importPackage path span under imported) rfl rfl)
    | false => exact .bind fun _ c imported => .pure (.single (ruled_importClass path span under imported) rfl rfl)
termination_by sizeOf s

/-- The typed forms of statements in a row, in an open block, are well typed. -/
theorem typed_stmts (ss : List Syntax.Stmt) (hg : Syntax.Stmt.GrammaticalAll ss) (a : AnalysisState)
    (under : a.env.Under config) (inside : a.scopes.isEmpty = false) :
    Yields (ctx.stmts ss) a fun rs b => ctx.Followed config a rs b := by
  cases ss with
  | nil =>
    unfold stmts
    exact .pure (.nil under)
  | cons s ss =>
    unfold stmts
    refine .bind fun first c made => .bind fun rest d made' => .pure ?_
    have before := typed_stmt s hg.1 a under (.inl inside) made
    have inside' : c.scopes.isEmpty = false := by
      rw [before.scopes, Scopes.isEmpty_followingAll, inside]
    exact before.append (typed_stmts ss hg.2 c before.under inside' made')
termination_by sizeOf ss

end

/-! ## Programs -/

/-- From the first state to the second one an analysis makes top-level statements that are well typed with those that
come behind them. -/
structure Continued (ctx : Context) (config : Config) (a : AnalysisState) (ss : List Stmt) (b : AnalysisState) : Prop where
  under : b.env.Under config
  scopes : b.scopes = .empty
  returns : a.returns ⊆ b.returns
  typed : ∀ last rest, b.returns ⊆ last.returns → ctx.ProgramTyped config last b.env rest →
    ctx.ProgramTyped config last a.env (ss ++ rest)

namespace Continued

variable {b c : AnalysisState} {ss ss' : List Stmt}

theorem nil (under : a.env.Under config) (scopes : a.scopes = .empty) : ctx.Continued config a [] a :=
  ⟨under, scopes, fun _ h => h, fun _ _ _ h => h⟩

theorem append (h : ctx.Continued config a ss b) (h' : ctx.Continued config b ss' c) :
    ctx.Continued config a (ss ++ ss') c where
  under := h'.under
  scopes := h'.scopes
  returns := List.Subset.trans h.returns h'.returns
  typed last rest within typed := by
    rw [List.append_assoc]
    exact h.typed last _ (List.Subset.trans h'.returns within) (h'.typed last rest within typed)

theorem of_followed (h : ctx.Followed config a ss b) (scopes : a.scopes = .empty) : ctx.Continued config a ss b where
  under := h.under
  scopes := by rw [h.scopes, scopes, Scopes.followingAll_empty]
  returns := h.before.returns
  typed last rest within typed := by
    have statements := h.typed
    rw [scopes] at statements
    exact .of_stmtsTyped statements h.before.grows within typed

end Continued

/-- A name declared for the whole program. -/
theorem continued_declarator (declared : Option Ty) (d : Syntax.Declarator) (under : a.env.Under config)
    (scopes : a.scopes = .empty) :
    Yields (ctx.declarator declared d) a fun s b => ctx.Continued config a [s] b := by
  refine wellTyped_declarator declared d under fun init c kept typed => ?_
  refine .bind fun inBlock c' named => .bind fun _ d' remembered => .pure ?_
  -- outside of all blocks a declaration adds a variable to the environment
  have outside : c.scopes = .empty := kept.scopes.trans scopes
  unfold declareName at named
  obtain ⟨_, _, got, named⟩ := bind_ok named
  cases got
  rw [outside] at named
  cases named
  have declared_under : { c with env := c.env.declare d.name (declaredType declared init) }.env.Under config :=
    ⟨kept.under.strong, kept.under.strict, kept.under.context⟩
  have whole : ctx.Ruled config _ [] _ := .refl declared_under
  have last := whole.remembered remembered
  refine ⟨last.under, last.scopes.trans outside, ?_, fun whole rest within next => ?_⟩
  · exact List.Subset.trans kept.before.returns last.before.returns
  · rw [scopes] at typed
    exact .declare kept.before.grows (List.Subset.trans last.before.returns within) typed rfl
      (next.of_grows last.before.grows)

theorem continued_declarators (declared : Option Ty) (ds : List Syntax.Declarator) (under : a.env.Under config)
    (scopes : a.scopes = .empty) :
    Yields (ctx.declarators declared ds) a fun ss b => ctx.Continued config a ss b := by
  induction ds generalizing a with
  | nil => exact .pure (.nil under scopes)
  | cons d ds ih =>
    unfold declarators
    refine .bind fun s c made => .bind fun ss c' rest => .pure ?_
    have first := continued_declarator declared d under scopes made
    exact first.append (ih first.under first.scopes rest)

theorem continued_stmt (s : Syntax.Stmt) (hg : s.Grammatical) (under : a.env.Under config) (scopes : a.scopes = .empty) :
    Yields (ctx.stmt s) a fun ss b => ctx.Continued config a ss b := by
  by_cases declares : ∃ type ds, s = .declare type ds
  · obtain ⟨type, ds, rfl⟩ := declares
    unfold stmt
    refine .bind fun declared c resolved => ?_
    rw [(ctx.asks_resolveType? type).eq_of_ok resolved]
    exact continued_declarators declared ds under scopes
  · have plain : ∀ type ds, s ≠ .declare type ds := fun type ds same => declares ⟨type, ds, same⟩
    exact fun ss b made => .of_followed (typed_stmt s hg a under (.inr plain) made) scopes

/-- The typed forms of top-level statements are well typed one after the other. -/
theorem continued_stmts (ss : List Syntax.Stmt) (hg : Syntax.Stmt.GrammaticalAll ss) (under : a.env.Under config)
    (scopes : a.scopes = .empty) : Yields (ctx.stmts ss) a fun rs b => ctx.Continued config a rs b := by
  induction ss generalizing a with
  | nil =>
    unfold stmts
    exact .pure (.nil under scopes)
  | cons s ss ih =>
    unfold stmts
    refine .bind fun first c made => .bind fun rest d made' => .pure ?_
    have before := continued_stmt s hg.1 under scopes made
    exact before.append (ih hg.2 before.under before.scopes made')

/-- What an analysis says of a program: it is well typed up to the end of the analysis, and its type is the best common
one of its last statement and of all that it returns. -/
def Certifies (ctx : Context) (config : Config) (p : Program) (env : Environment) : Prop :=
  ∃ last : AnalysisState, env = last.env ∧ ctx.ProgramTyped config last (.ofConfig config) p.body ∧
    p.egress = last.returns.foldr (fun t acc => ctx.classes.unify acc t) (lastType p.body)

/-- What a setter stores into is the target of an assignment. -/
def SetsTarget (ctx : Context) (config : Config) (p : Program) : Prop :=
  ∃ target stored, p.body = [.expr target] ∧ ctx.Takes config target .object stored

theorem typed_program (body : List Syntax.Stmt) (hg : Syntax.Stmt.GrammaticalAll body) :
    Yields (ctx.program body) (.ofEnvironment (.ofConfig config)) fun p b => ctx.Certifies config p b.env := by
  unfold program
  refine .bind fun ss b made => .get (.pure ?_)
  have whole : ctx.Continued config (.ofEnvironment (.ofConfig config)) ss b :=
    continued_stmts body hg ⟨rfl, rfl, rfl⟩ rfl made
  refine ⟨b, rfl, ?_, rfl⟩
  have typed := whole.typed b [] (List.Subset.refl _) (.nil (.refl _))
  rw [List.append_nil] at typed
  exact typed

theorem ruled_setter (body : List Syntax.Stmt) (under : a.env.Under config) :
    Yields (ctx.setter body) a fun p b => ctx.Ruled config a (Stmt.partsAll p.body) b ∧ ctx.SetsTarget config p := by
  unfold setter
  split
  · rename_i target
    refine .bind fun r b made => ?_
    obtain ⟨typed, stored⟩ := r
    obtain ⟨ruled, takes⟩ := ruled_assignedTarget under target .object (ruled_expr target none under) made
    refine .get (.pure ⟨ruled.subset ?_, typed, stored, rfl, takes⟩)
    exact List.append_subset.2 ⟨List.Subset.refl _, List.nil_subset _⟩
  · exact .fail _ _

/-- What an analysis gives is typed, or it is a setter. -/
theorem typed_of_analyze {body : List Syntax.Stmt} (hg : Syntax.Stmt.GrammaticalAll body) {env' : Environment}
    {p : Program} (h : ctx.analyze false body (.ofConfig config) = (.ok p, env')) : ctx.Certifies config p env' := by
  unfold analyze at h
  obtain ⟨outcome, rfl⟩ := Prod.mk.inj h
  exact typed_program body hg (Prod.ext outcome rfl)

theorem rule_of_analyze {isSetter : Bool} {body : List Syntax.Stmt} (hg : Syntax.Stmt.GrammaticalAll body)
    {env' : Environment} {p : Program} (h : ctx.analyze isSetter body (.ofConfig config) = (.ok p, env')) :
    (∀ e ∈ Stmt.partsAll p.body, ctx.Rule config e) ∧ (isSetter → ctx.SetsTarget config p) := by
  cases isSetter with
  | true =>
    unfold analyze at h
    obtain ⟨outcome, rfl⟩ := Prod.mk.inj h
    obtain ⟨ruled, sets⟩ := ruled_setter body ⟨rfl, rfl, rfl⟩ (Prod.ext outcome rfl)
    exact ⟨fun e he => (ruled.obeys e he).rule, fun _ => sets⟩
  | false =>
    obtain ⟨last, -, typed, -⟩ := typed_of_analyze hg h
    exact ⟨typed.rule, fun h => by cases h⟩

end Context

/-! ## Compiled programs -/

/-- The context in which an engine analyzes a source. -/
def Engine.context (e : Engine) (source : String) : Context :=
  ⟨e.world, e.directory, e.functions, source.toList⟩

variable {e : Engine} {source : String} {config : Config} {x : Expression}

/-- Every part of a compiled program obeys its typing rule, and a setter stores into the target of an assignment. -/
theorem Engine.rule_of_compile {isSetter : Bool} (h : e.compile source isSetter config = .ok x) :
    (∀ n ∈ Typed.Stmt.partsAll x.program.body, (e.context source).Rule config n) ∧
      (isSetter → (e.context source).SetsTarget config x.program) := by
  obtain ⟨body, program, env, parsed, analyzed, rfl⟩ := compile_ok h
  exact Context.rule_of_analyze (Syntax.grammatical_parse parsed) analyzed

end HostExpr
