import HostExpr.Proofs.Engine.Compile
import HostExpr.Proofs.Scope.Resolution
import HostExpr.Proofs.Typing.Moments
import HostExpr.Proofs.Typing.Shifted

/-!
# Declarations of a block stay in the block

A region of a program opens a block of its own. If the first thing that it does with a name is to declare it there,
then the analysis of the region leaves what the environment says of the name as it was, and the place of the name too:
`Context.sameEntry_region`. Whatever is done with the name in the region is done with the name of the block, also in
loops and blocks inside, and also if the analysis fails on the way.

While a name is declared in an open block, each step of an analysis leaves the entry of the name alone: `Spares`. So
does a step in which the name does not occur.
-/

namespace HostExpr

open Typed

/-! ## First mentions -/

namespace Syntax

namespace Declarator

/-- The names in the initial value. -/
def initialNames (d : Declarator) : List String := (d.init.map Expr.names).getD []

/-- In a row of declarators the name is declared before it is mentioned otherwise. -/
def DeclareFirst (name : String) : List Declarator → Prop
  | [] => False
  | d :: ds => name ∉ d.initialNames ∧ (d.name = name ∨ DeclareFirst name ds)

instance decidableDeclareFirst (name : String) : (ds : List Declarator) → Decidable (DeclareFirst name ds)
  | [] => .isFalse id
  | d :: ds =>
    have := decidableDeclareFirst name ds
    inferInstanceAs (Decidable (name ∉ d.initialNames ∧ (d.name = name ∨ DeclareFirst name ds)))

end Declarator

namespace Stmt

mutual

/-- The names in a statement that stand for variables or are declared. -/
def names : Stmt → List String
  | expr e => e.names
  | declare _ ds => ds.flatMap fun d => d.initialNames ++ [d.name]
  | branch cond a none => cond.names ++ namesAll a
  | branch cond a (some b) => cond.names ++ namesAll a ++ namesAll b
  | whileLoop cond body => cond.names ++ namesAll body
  | forLoop none cond update body => (cond.map Expr.names).getD [] ++ Expr.namesAll update ++ namesAll body
  | forLoop (some s) cond update body =>
    names s ++ (cond.map Expr.names).getD [] ++ Expr.namesAll update ++ namesAll body
  | forEach _ name _ items body => items.names ++ name :: namesAll body
  | block body => namesAll body
  | returns value => (value.map Expr.names).getD []
  | importPath .. => []

/-- The names in a row of statements. -/
def namesAll : List Stmt → List String
  | [] => []
  | s :: ss => names s ++ namesAll ss

end

/-- The statement is a declaration, and declares the name before it mentions it otherwise. -/
def DeclaresFirst (name : String) : Stmt → Prop
  | declare _ ds => Declarator.DeclareFirst name ds
  | _ => False

instance decidableDeclaresFirst (name : String) : (s : Stmt) → Decidable (s.DeclaresFirst name)
  | declare _ ds => Declarator.decidableDeclareFirst name ds
  | expr _ | branch .. | whileLoop .. | forLoop .. | forEach .. | block _ | returns _ | importPath .. => .isFalse id

/-- In a row of statements the first mention of the name is a declaration of it that belongs to the row. -/
def DeclareFirst (name : String) : List Stmt → Prop
  | [] => False
  | s :: ss => s.DeclaresFirst name ∨ name ∉ s.names ∧ DeclareFirst name ss

instance decidableDeclareFirst (name : String) : (ss : List Stmt) → Decidable (DeclareFirst name ss)
  | [] => .isFalse id
  | s :: ss =>
    have := decidableDeclareFirst name ss
    inferInstanceAs (Decidable (s.DeclaresFirst name ∨ name ∉ s.names ∧ DeclareFirst name ss))

end Stmt

end Syntax

/-- A part of a program that opens a block. -/
inductive Region
  /-- The statements of a block, of a branch, or of the body of a loop. -/
  | body (ss : List Syntax.Stmt)
  /-- A `for` statement. -/
  | loop (init : Option Syntax.Stmt) (cond : Option Syntax.Expr) (update : List Syntax.Expr) (body : List Syntax.Stmt)
  /-- What a loop over items does for each of them, with the name and the type of its variable. -/
  | items (name : String) (type : Ty) (body : List Syntax.Stmt)

/-- The first mention of the name in the region is the declaration of it that belongs to the region. -/
def Region.DeclaresFirst (name : String) : Region → Prop
  | body ss => Syntax.Stmt.DeclareFirst name ss
  | loop init _ _ _ => ∃ s ∈ init, s.DeclaresFirst name
  | items item _ _ => item = name

/-! ## Entries of a name -/

namespace Table

variable {α : Type}

/-- What a name stands for, with its place among the names. -/
def entryOf? (t : Table α) (name : String) : Option (Nat × α) := do return (← t.names.idxOf? name, ← t.get? name)

/-- A name keeps its entry when another one is put. -/
theorem entryOf?_put_of_ne (t : Table α) {name other : String} (h : other ≠ name) (a : α) :
    (t.put other a).entryOf? name = t.entryOf? name := by
  have place : (t.put other a).names.idxOf? name = t.names.idxOf? name := by
    rw [names_put]
    split
    · rfl
    · simp [List.idxOf?, List.findIdx?_append, h]
  unfold entryOf?
  rw [place, get?_put, if_neg h.symm]

/-- There is nothing to erase of a name that stands for nothing. -/
theorem erase_of_get?_eq_none {t : Table α} {name : String} (h : t.get? name = none) : t.erase name = t := by
  refine List.filter_eq_self.2 fun (other, a) listed => ?_
  have different : name ≠ other := by simpa using List.lookup_eq_none_iff.1 h _ listed
  exact decide_eq_true different.symm

end Table

namespace Environment

variable {name : String} {env env' env'' : Environment}

/-- The name has the same entry among the variables and the same among the inputs. -/
structure SameEntry (name : String) (env env' : Environment) : Prop where
  vars : env'.vars.entryOf? name = env.vars.entryOf? name
  inputs : env'.inputs.entryOf? name = env.inputs.entryOf? name

namespace SameEntry

theorem refl (name : String) (env : Environment) : SameEntry name env env := ⟨rfl, rfl⟩

theorem trans (h : SameEntry name env env') (h' : SameEntry name env' env'') : SameEntry name env env'' :=
  ⟨h'.vars.trans h.vars, h'.inputs.trans h.inputs⟩

theorem of_sameNames (h : env.SameNames env') : SameEntry name env env' := by
  constructor
  · rw [h.vars]
  · rw [h.inputs]

/-- A variable is declared that was no input. -/
theorem declare {other : String} (different : other ≠ name) (fresh : env.inputs.get? other = none) (type : Ty) :
    SameEntry name env (env.declare other type) where
  vars := Table.entryOf?_put_of_ne _ different type
  inputs := congrArg (·.entryOf? name) (Table.erase_of_get?_eq_none fresh)

theorem addInput {other : String} (different : other ≠ name) (type : Ty) :
    SameEntry name env (env.addInput other type) := by
  unfold Environment.addInput
  split
  · exact .refl name env
  · exact ⟨rfl, Table.entryOf?_put_of_ne _ different type⟩

end SameEntry

end Environment

/-! ## Scopes that are filled -/

/-- The same blocks are open, and what was declared in them still is; the innermost one may have more names. -/
structure Scopes.Continues {α : Type} (s s' : Scopes α) : Prop where
  isEmpty : s'.isEmpty = s.isEmpty
  popped : s'.popped = s.popped
  declared : ∀ name, (s.lookup name).isSome → (s'.lookup name).isSome

namespace Scopes.Continues

variable {α : Type} {s s' s'' : Scopes α}

theorem refl (s : Scopes α) : s.Continues s := ⟨rfl, rfl, fun _ h => h⟩

theorem trans (h : s.Continues s') (h' : s'.Continues s'') : s.Continues s'' :=
  ⟨h'.isEmpty.trans h.isEmpty, h'.popped.trans h.popped, fun name found => h'.declared name (h.declared name found)⟩

theorem declaring (hs : s.isEmpty = false) (name : String) (a : α) : s.Continues (s.declaring name a) where
  isEmpty := s.isEmpty_declaring name a
  popped := s.popped_declaring name a
  declared other found := by
    rw [lookup_declaring hs]
    split
    · rfl
    · exact found

end Scopes.Continues

namespace AnalysisState

variable {name : String} {a b c : AnalysisState}

theorem scopes_declaring (hs : a.scopes.isEmpty = false) (other : String) (type : Ty) :
    (a.declaring other type).scopes = a.scopes.declaring other type := by
  unfold AnalysisState.declaring
  rw [Scopes.declare_eq, hs]
  rfl

theorem env_declaring (a : AnalysisState) (other : String) (type : Ty) : (a.declaring other type).env = a.env := by
  unfold AnalysisState.declaring
  split <;> rfl

/-- A block that was opened is closed again. -/
theorem scopes_closed (h : a.opened.scopes.Continues b.scopes) : b.closed.scopes = a.scopes := by
  have outer : b.scopes.popped = a.scopes := h.popped
  have isOpen : b.scopes.isEmpty = false := h.isEmpty
  unfold AnalysisState.closed
  match frames : b.scopes with
  | ⟨[]⟩ =>
    rw [frames] at isOpen
    cases isOpen
  | ⟨frame :: rest⟩ =>
    rw [frames] at outer
    exact outer

/-! ## Steps that spare a name -/

/-- The entry of the name is the same in both states, and the second continues the blocks of the first. -/
structure Spares (name : String) (a b : AnalysisState) : Prop where
  entry : a.env.SameEntry name b.env
  scopes : a.scopes.Continues b.scopes

/-- A block is open, and if the name is mentioned then it is declared in some open block. -/
structure Shadows (name : String) (mentioned : Prop) (a : AnalysisState) : Prop where
  isOpen : a.scopes.isEmpty = false
  declared : mentioned → (a.scopes.lookup name).isSome

theorem Spares.refl (name : String) (a : AnalysisState) : Spares name a a := ⟨.refl name a.env, .refl a.scopes⟩

theorem Spares.trans (h : Spares name a b) (h' : Spares name b c) : Spares name a c :=
  ⟨h.entry.trans h'.entry, h.scopes.trans h'.scopes⟩

theorem Shadows.of_spares {mentioned : Prop} (h : Shadows name mentioned a) (h' : Spares name a b) :
    Shadows name mentioned b :=
  ⟨h'.scopes.isEmpty.trans h.isOpen, fun mention => h'.scopes.declared name (h.declared mention)⟩

end AnalysisState

namespace Analysis

variable {α β : Type} {name : String} {mentioned : Prop}

/-- From this state on, the step leaves the entry of the name alone, whatever comes of it. -/
def SparesFrom (name : String) (a : AnalysisState) (step : Analysis α) : Prop := a.Spares name (step a).2

/-- The step leaves the entry of the name alone if the name is not mentioned in it, or is declared in an open block. -/
def Spares (name : String) (mentioned : Prop) (step : Analysis α) : Prop :=
  ∀ a : AnalysisState, a.Shadows name mentioned → SparesFrom name a step

/-- The step declares the name in the innermost block, unless it fails, and it leaves the entry of the name alone. -/
structure Introduces (name : String) (step : Analysis α) : Prop where
  spares : Spares name False step
  declared : ∀ a r b, a.scopes.isEmpty = false → step a = (.ok r, b) → (b.scopes.lookup name).isSome

theorem SparesFrom.tells {x : Analysis α} {answer : AnalysisState → α} (h : Tells x answer) {f : α → Analysis β}
    {a : AnalysisState} (hf : SparesFrom name a (f (answer a))) : SparesFrom name a (x >>= f) := by
  unfold SparesFrom
  rw [h.bind_apply]
  exact hf

theorem Tells.env : Tells Analysis.env AnalysisState.env := fun _ => rfl

theorem Tells.get : Tells (MonadState.get : Analysis AnalysisState) id := fun _ => rfl

namespace Spares

/-- What leaves the names and the scopes alone spares each name. -/
theorem keep {x : Analysis α} (names : KeepsNames x) (scopes : KeepsScopes x) : Spares name mentioned x :=
  fun a _ => ⟨.of_sameNames (names a), by rw [scopes a]; exact .refl _⟩

theorem check {x : Analysis α} (h : Asks x) : Spares name mentioned x := fun a _ => by
  unfold SparesFrom
  rw [h.checks a]
  exact .refl name a

theorem pure (r : α) : Spares name mentioned (Pure.pure r) := .check (.pure r)

theorem bind {x : Analysis α} {f : α → Analysis β} (hx : Spares name mentioned x)
    (hf : ∀ r, Spares name mentioned (f r)) : Spares name mentioned (x >>= f) := fun a shadows => by
  have first : a.Spares name (x a).2 := hx a shadows
  unfold SparesFrom
  rw [bind_eq_bindCont]
  refine first.trans ?_
  cases (x a).1 with
  | ok r => exact hf r _ (shadows.of_spares first)
  | error e => exact .refl name _

theorem map {x : Analysis α} (f : α → β) (hx : Spares name mentioned x) : Spares name mentioned (f <$> x) :=
  hx.bind fun r => .pure (f r)

/-- A block is opened, and closed again, also if the analysis of it fails. -/
theorem inBlock {x : Analysis α} (hx : Spares name mentioned x) : Spares name mentioned (Analysis.inBlock x) :=
  fun a shadows => by
  have inside : a.opened.Spares name (x a.opened).2 := hx a.opened ⟨rfl, shadows.declared⟩
  unfold SparesFrom
  rw [inBlock_apply]
  refine ⟨inside.entry.trans (.of_sameNames (AnalysisState.sameNames_closed _)), ?_⟩
  rw [AnalysisState.scopes_closed inside.scopes]
  exact .refl _

theorem declareInBlock (other : String) (type : Ty) : Spares name mentioned (Analysis.declareInBlock other type) :=
  fun a shadows => by
  unfold SparesFrom
  rw [declareInBlock_apply]
  refine ⟨?_, ?_⟩
  · rw [AnalysisState.env_declaring]
    exact .refl name _
  · rw [AnalysisState.scopes_declaring shadows.isOpen]
    exact .declaring shadows.isOpen other type

end Spares

/-- What is made of the outcome of a block can be made in the block. -/
theorem inBlock_map (f : α → β) (x : Analysis α) :
    Analysis.inBlock (x >>= fun r => pure (f r)) = Analysis.inBlock x >>= fun r => pure (f r) := by
  funext a
  rw [bind_eq_bindCont, inBlock_apply, inBlock_apply, bind_eq_bindCont]
  cases (x a.opened).1 <;> rfl

namespace Introduces

theorem declareInBlock (name : String) (type : Ty) : Introduces name (Analysis.declareInBlock name type) where
  spares := .declareInBlock name type
  declared a r b isOpen h := by
    rw [declareInBlock_apply] at h
    cases h
    rw [AnalysisState.scopes_declaring isOpen, Scopes.lookup_declaring isOpen, if_pos rfl]
    rfl

/-- Once the name is declared it may be mentioned. -/
theorem bind {x : Analysis α} {f : α → Analysis β} (hx : Introduces name x) (hf : ∀ r, Spares name True (f r)) :
    Introduces name (x >>= f) := by
  -- the state behind the first step, and what the second one does with it
  have second (a : AnalysisState) (isOpen : a.scopes.isEmpty = false) (r : α) (outcome : (x a).1 = .ok r) :
      (x a).2.Shadows name True ∧ (x a).2.Spares name (f r (x a).2).2 := by
    have first := hx.spares a ⟨isOpen, False.elim⟩
    have declared := hx.declared a r (x a).2 isOpen (Prod.ext outcome rfl)
    have shadows : (x a).2.Shadows name True := ⟨first.scopes.isEmpty.trans isOpen, fun _ => declared⟩
    exact ⟨shadows, hf r _ shadows⟩
  constructor
  · intro a shadows
    have first : a.Spares name (x a).2 := hx.spares a shadows
    unfold SparesFrom
    rw [bind_eq_bindCont]
    cases outcome : (x a).1 with
    | ok r => exact first.trans (second a shadows.isOpen r outcome).2
    | error e => exact first
  · intro a r b isOpen h
    obtain ⟨q, c, hq, h⟩ := of_bind_ok h
    obtain ⟨shadows, rest⟩ := second a isOpen q (congrArg Prod.fst hq)
    rw [hq] at shadows rest
    rw [h] at rest
    exact rest.scopes.declared name (shadows.declared trivial)

/-- Before the name is declared it is not mentioned. -/
theorem after {x : Analysis α} {f : α → Analysis β} (hx : Spares name False x) (hf : ∀ r, Introduces name (f r)) :
    Introduces name (x >>= f) where
  spares := hx.bind fun r => (hf r).spares
  declared a r b isOpen h := by
    obtain ⟨q, c, hq, h⟩ := of_bind_ok h
    have first : a.Spares name (x a).2 := hx a ⟨isOpen, False.elim⟩
    rw [hq] at first
    exact (hf q).declared c r b (first.scopes.isEmpty.trans isOpen) h

/-- The block in which the name is declared leaves the entry of the name alone. -/
theorem sameEntry_inBlock {x : Analysis α} (h : Introduces name x) (a : AnalysisState) :
    a.env.SameEntry name (Analysis.inBlock x a).2.env := by
  have inside := h.spares a.opened ⟨rfl, False.elim⟩
  rw [inBlock_apply]
  exact inside.entry.trans (.of_sameNames (AnalysisState.sameNames_closed _))

end Introduces

end Analysis

/-! ## Names -/

namespace Context

open Analysis

variable (ctx : Context) {name : String} {mentioned : Prop}

/-- A name that stands for nothing is asked for or declared, and no other name is. -/
theorem sparesFrom_unknownName {other : String} (different : other ≠ name) {a : AnalysisState}
    (fresh : a.env.inputs.get? other = none) (span : Span) : SparesFrom name a (unknownName other span) := by
  unfold unknownName
  refine .tells .env ?_
  split
  · exact .refl name a
  · split
    · exact ⟨.declare different fresh .object, .refl _⟩
    · exact ⟨.addInput different .object, .refl _⟩

theorem sparesFrom_freeName {other : String} (different : other ≠ name) {a : AnalysisState}
    (fresh : a.env.inputs.get? other = none) (span : Span) : SparesFrom name a (ctx.freeName other span) := by
  unfold freeName
  refine .tells .env ?_
  split
  · exact .refl name a
  · split
    · exact .refl name a
    · split
      · exact ⟨.of_sameNames (.rememberParams _ _), .refl _⟩
      · split
        · exact .refl name a
        · exact sparesFrom_unknownName different fresh span

/-- A name that no open block declares, where the one that is spared is declared in one if it is mentioned. -/
theorem ne_of_lookup {other : String} (h : name = other → mentioned) {a : AnalysisState}
    (shadows : a.Shadows name mentioned) (undeclared : a.scopes.lookup other = none) : other ≠ name := by
  rintro rfl
  have declared := shadows.declared (h rfl)
  rw [undeclared] at declared
  cases declared

theorem spares_ident {other : String} (h : name = other → mentioned) (span : Span) :
    Spares name mentioned (ctx.ident other span) := fun a shadows => by
  unfold ident
  refine SparesFrom.tells .get ?_
  split
  · exact .refl name a
  · rename_i undeclared
    have different := ne_of_lookup h shadows (Option.eq_none_iff_forall_ne_some.2 undeclared)
    split
    · exact ⟨.of_sameNames (.rememberParams _ _), .refl _⟩
    · split
      · exact ⟨.of_sameNames (.rememberParams _ _), .refl _⟩
      · rename_i fresh
        exact ctx.sparesFrom_freeName different (Option.eq_none_iff_forall_ne_some.2 fresh) span

theorem spares_assignedName {other : String} (h : name = other → mentioned) (span : Span) (value : Ty) :
    Spares name mentioned (ctx.assignedName other span value) := fun a shadows => by
  unfold assignedName
  refine SparesFrom.tells .get ?_
  split
  · exact .refl name a
  · rename_i undeclared
    have different := ne_of_lookup h shadows (Option.eq_none_iff_forall_ne_some.2 undeclared)
    split
    · exact .refl name a
    · split
      · exact ⟨.refl name _, .refl _⟩
      · rename_i fresh
        split
        · refine Spares.bind (ctx.spares_ident h span) (fun target => ?_) a shadows
          exact .bind (.check (ctx.asks_checkAssignable target _)) fun _ => .pure _
        · exact ⟨.declare different (Option.eq_none_iff_forall_ne_some.2 fresh) _, .refl _⟩

/-! ## Expressions -/

theorem spares_propertyChain (span : Span) (e : Expr) (names : List String) :
    Spares name mentioned (ctx.propertyChain span e names) := by
  induction names generalizing e with
  | nil => exact .pure _
  | cons property names ih =>
    unfold propertyChain
    exact .bind (.keep (ctx.keepsNames_property e property span) (ctx.keepsScopes_property e property span)) ih

theorem spares_checkedTarget {analyzed : Analysis Expr} (spares : Spares name mentioned analyzed) (span : Span) :
    Spares name mentioned (ctx.checkedTarget analyzed span) := by
  unfold checkedTarget
  refine .bind spares fun node => ?_
  refine .bind (.check (ctx.asks_checkWritable node span)) fun _ => ?_
  exact .bind (.check (ctx.asks_checkAssignable node _)) fun _ => .pure _

theorem spares_assignedTarget (target : Syntax.Expr) (h : name ∈ target.names → mentioned) {analyzed : Analysis Expr}
    (spares : Spares name mentioned analyzed) (value : Ty) :
    Spares name mentioned (ctx.assignedTarget target analyzed value) := by
  obtain ⟨span, other, rfl⟩ | read | refused := assignedTarget_cases target
  · exact ctx.spares_assignedName (fun same => h (by simp [Syntax.Expr.names, same])) span value
  · rw [read]
    exact ctx.spares_checkedTarget spares _
  · rw [refused]
    exact .check (.fail _ _)

mutual

theorem spares_expr (e : Syntax.Expr) (hint : Option Ty) (h : name ∈ e.names → mentioned) :
    Spares name mentioned (ctx.expr e hint) := by
  -- by recursion on the expression: each part may mention the name only if the whole does
  cases e with
  | literal span value =>
    unfold expr
    exact .pure _
  | ident span other =>
    unfold expr
    exact ctx.spares_ident (fun same => h (by simp [Syntax.Expr.names, same])) span
  | field span receiver property =>
    unfold expr
    refine .bind (.keep .get .get) fun s => ?_
    split
    · exact ctx.spares_propertyChain span _ _
    · refine .bind (spares_expr receiver none h) fun e => ?_
      exact .keep (ctx.keepsNames_property e property span) (ctx.keepsScopes_property e property span)
  | methodCall span receiver method args =>
    simp only [Syntax.Expr.names, List.mem_append, or_imp] at h
    unfold expr
    refine .bind (spares_expr receiver none h.1) fun receiver => .bind (spares_exprs args h.2) fun args => ?_
    exact .keep (ctx.keepsNames_methodCall receiver method args span)
      (ctx.keepsScopes_methodCall receiver method args span)
  | call span function args =>
    unfold expr
    refine .bind (spares_exprs args h) fun args => ?_
    exact .keep (ctx.keepsNames_callNamed function args span) (ctx.keepsScopes_callNamed function args span)
  | index span receiver position =>
    simp only [Syntax.Expr.names, List.mem_append, or_imp] at h
    unfold expr
    refine .bind (spares_expr receiver none h.1) fun receiver => ?_
    refine .bind (spares_expr position none h.2) fun position => ?_
    exact .keep (ctx.keepsNames_index receiver position span) (ctx.keepsScopes_index receiver position span)
  | assign span target op value =>
    simp only [Syntax.Expr.names, List.mem_append, or_imp] at h
    cases op with
    | plain =>
      unfold expr
      refine .bind (spares_expr value none h.2) fun value => ?_
      refine .bind (ctx.spares_assignedTarget target h.1 (spares_expr target none h.1) _) fun r => ?_
      exact .check (ctx.asks_plainAssignment value r.1 r.2 span)
    | compound op =>
      unfold expr
      refine .bind (spares_expr target none h.1) fun target => .bind (spares_expr value none h.2) fun value => ?_
      exact .check (ctx.asks_compoundAssignment op target value span)
  | arith span op left right =>
    simp only [Syntax.Expr.names, List.mem_append, or_imp] at h
    unfold expr
    refine .bind (spares_expr left none h.1) fun left => .bind (spares_expr right none h.2) fun right => ?_
    exact .bind (.check (ctx.asks_arithType op _ _ span)) fun _ => .pure _
  | logic span op left right =>
    simp only [Syntax.Expr.names, List.mem_append, or_imp] at h
    unfold expr
    refine .bind (spares_expr left none h.1) fun left => .bind (.check (ctx.asks_checkCondition left)) fun _ => ?_
    refine .bind (spares_expr right none h.2) fun right => ?_
    exact .bind (.check (ctx.asks_checkCondition right)) fun _ => .pure _
  | compare span op left right =>
    simp only [Syntax.Expr.names, List.mem_append, or_imp] at h
    unfold expr
    refine .bind (spares_expr left none h.1) fun left => .bind (spares_expr right none h.2) fun right => ?_
    exact .bind (.check (ctx.asks_checkComparison op _ _ span)) fun _ => .pure _
  | unary span op operand =>
    unfold expr
    refine .bind (spares_expr operand none h) fun operand => ?_
    have node : Spares name mentioned (do
        let type ← ctx.unaryType op operand.type span
        return Expr.unary ⟨type, span⟩ op operand) :=
      .bind (.check (ctx.asks_unaryType op _ span)) fun _ => .pure _
    cases op with
    | not => exact .bind (.check (ctx.asks_checkCondition operand)) fun _ => node
    | neg => exact node
  | step span op target =>
    unfold expr
    exact .bind (spares_expr target none h) fun target => .check (ctx.asks_stepNode op target span)
  | cast span type operand =>
    unfold expr
    refine .bind (.check (ctx.asks_resolveType type)) fun type => ?_
    refine .bind (spares_expr operand (some type) h) fun operand => ?_
    exact .bind (.check (ctx.asks_checkCast _ type span)) fun _ => .pure _
  | conditional span cond thenBranch elseBranch =>
    simp only [Syntax.Expr.names, List.mem_append, or_imp] at h
    unfold expr
    refine .bind (spares_expr cond none h.1.1) fun cond => .bind (.check (ctx.asks_checkCondition cond)) fun _ => ?_
    refine .bind (spares_expr thenBranch hint h.1.2) fun a => ?_
    exact .bind (spares_expr elseBranch hint h.2) fun b => .pure _
  | construct span type args =>
    unfold expr
    refine .bind (.check (ctx.asks_resolveType type)) fun type => .bind (spares_exprs args h) fun args => ?_
    exact .keep (ctx.keepsNames_construct type args span) (ctx.keepsScopes_construct type args span)
  | newArray span type items =>
    unfold expr
    refine .bind (.check (ctx.asks_resolveType type)) fun type => ?_
    exact .bind (spares_arrayItems _ items h) fun _ => .pure _
  | newSized span type length =>
    unfold expr
    refine .bind (.check (ctx.asks_resolveType type)) fun item => .bind (spares_expr length none h) fun length => ?_
    exact .bind (.check (ctx.asks_checkLength length)) fun _ => .pure _
  | inlineArray span items =>
    unfold expr
    split
    · exact .bind (spares_arrayItems _ items h) fun _ => .pure _
    · exact .bind (spares_exprs items h) fun _ => .pure _
  | inlineList span items =>
    unfold expr
    refine .bind (spares_exprs items h) fun items => ?_
    exact .keep (ctx.keepsNames_inlineList items span) (ctx.keepsScopes_inlineList items span)
  | inlineMap span entries =>
    unfold expr
    refine .bind (spares_exprEntries entries h) fun entries => ?_
    exact .keep (ctx.keepsNames_inlineMap entries span) (ctx.keepsScopes_inlineMap entries span)
termination_by sizeOf e

theorem spares_exprs (es : List Syntax.Expr) (h : name ∈ Syntax.Expr.namesAll es → mentioned) :
    Spares name mentioned (ctx.exprs es) := by
  cases es with
  | nil =>
    unfold exprs
    exact .pure _
  | cons e es =>
    simp only [Syntax.Expr.namesAll, List.mem_append, or_imp] at h
    unfold exprs
    exact .bind (spares_expr e none h.1) fun _ => .bind (spares_exprs es h.2) fun _ => .pure _
termination_by sizeOf es

theorem spares_arrayItems (item : Ty) (es : List Syntax.Expr) (h : name ∈ Syntax.Expr.namesAll es → mentioned) :
    Spares name mentioned (ctx.arrayItems item es) := by
  cases es with
  | nil =>
    unfold arrayItems
    exact .pure _
  | cons e es =>
    simp only [Syntax.Expr.namesAll, List.mem_append, or_imp] at h
    unfold arrayItems
    refine .bind (spares_expr e (some item) h.1) fun e => ?_
    refine .bind (.check (ctx.asks_checkCoercion _ item _)) fun _ => ?_
    exact .bind (spares_arrayItems item es h.2) fun _ => .pure _
termination_by sizeOf es

theorem spares_exprEntries (entries : List (Syntax.Expr × Syntax.Expr))
    (h : name ∈ Syntax.Expr.namesEntries entries → mentioned) : Spares name mentioned (ctx.exprEntries entries) := by
  match entries with
  | [] =>
    unfold exprEntries
    exact .pure _
  | (key, value) :: rest =>
    simp only [Syntax.Expr.namesEntries, List.mem_append, or_imp] at h
    unfold exprEntries
    refine .bind (spares_expr key none h.1.1) fun key => .bind (spares_expr value none h.1.2) fun value => ?_
    exact .bind (spares_exprEntries rest h.2) fun _ => .pure _
termination_by sizeOf entries

end

/-! ## Where statements open blocks -/

/-- The analysis of a region, in a block of its own. -/
def region : Region → Analysis (List Stmt)
  | .body ss => Analysis.inBlock (ctx.stmts ss)
  | .loop init cond update body => ctx.stmt (.forLoop init cond update body)
  | .items name type body => Analysis.inBlock do
    Analysis.declareInBlock name type
    Analysis.inBlock (ctx.stmts body)

theorem stmt_block (body : List Syntax.Stmt) : ctx.stmt (.block body) = (do
    let body ← ctx.region (.body body)
    return [.block ⟨lastType body, .point 0⟩ body]) := by
  rw [stmt]
  rfl

theorem stmt_branch_none (cond : Syntax.Expr) (thenBody : List Syntax.Stmt) :
    ctx.stmt (.branch cond thenBody none) = (do
      let cond ← ctx.condition cond
      let thenBody ← ctx.region (.body thenBody)
      return [.branch (effectInfo cond.span) cond thenBody none]) := by
  rw [stmt]
  rfl

theorem stmt_branch_some (cond : Syntax.Expr) (thenBody elseBody : List Syntax.Stmt) :
    ctx.stmt (.branch cond thenBody (some elseBody)) = (do
      let cond ← ctx.condition cond
      let thenBody ← ctx.region (.body thenBody)
      let elseBody ← some <$> ctx.region (.body elseBody)
      return [.branch (effectInfo cond.span) cond thenBody elseBody]) := by
  rw [stmt]
  rfl

theorem stmt_whileLoop (cond : Syntax.Expr) (body : List Syntax.Stmt) : ctx.stmt (.whileLoop cond body) = (do
    let cond ← ctx.condition cond
    let body ← ctx.region (.body body)
    return [.whileLoop (effectInfo cond.span) cond body]) := by
  rw [stmt]
  rfl

/-- The type of the variable and the items are found outside of the block. -/
theorem stmt_forEach (type : Option Syntax.TypeExpr) (item : String) (span : Span) (items : Syntax.Expr)
    (body : List Syntax.Stmt) : ctx.stmt (.forEach type item span items body) = (do
      let declared ← ctx.resolveType? type
      let items ← ctx.expr items none
      let itemType ← ctx.iteratedType items
      let body ← ctx.region (.items item (declared.getD itemType) body)
      return [.forEach (effectInfo span) item declared items body]) := by
  rw [stmt]
  congr 1
  funext declared
  congr 1
  funext items
  congr 1
  funext itemType
  exact inBlock_map (fun body => [Stmt.forEach (effectInfo span) item declared items body]) (do
    Analysis.declareInBlock item (declared.getD itemType)
    Analysis.inBlock (ctx.stmts body))

/-! ## Statements -/

theorem spares_expr? (e : Option Syntax.Expr) (hint : Option Ty)
    (h : name ∈ (e.map Syntax.Expr.names).getD [] → mentioned) : Spares name mentioned (ctx.expr? e hint) := by
  cases e with
  | none => exact .pure _
  | some e => exact .map _ (ctx.spares_expr e hint h)

theorem spares_condition (e : Syntax.Expr) (h : name ∈ e.names → mentioned) :
    Spares name mentioned (ctx.condition e) := by
  unfold condition
  refine .bind (ctx.spares_expr e none h) fun cond => ?_
  exact .bind (.check (ctx.asks_checkCondition cond)) fun _ => .pure _

theorem spares_condition? (e : Option Syntax.Expr) (h : name ∈ (e.map Syntax.Expr.names).getD [] → mentioned) :
    Spares name mentioned (ctx.condition? e) := by
  cases e with
  | none => exact .pure _
  | some e => exact .map _ (ctx.spares_condition e h)

theorem spares_returned (value : Option Syntax.Expr) (h : name ∈ (value.map Syntax.Expr.names).getD [] → mentioned) :
    Spares name mentioned (ctx.returned value) := by
  unfold returned
  refine .bind (ctx.spares_expr? value none h) fun value => ?_
  exact .bind (.keep (fun _ => .refl _) fun _ => rfl) fun _ => .pure _

/-- In an open block a name is declared in the block. -/
theorem declareName_of_isOpen {a : AnalysisState} (isOpen : a.scopes.isEmpty = false) (other : String) (type : Ty) :
    declareName other type a = (.ok true, a.declaring other type) := by
  unfold declareName
  rw [Tells.get.bind_apply, id, isOpen]
  rfl

theorem spares_declareName (other : String) (type : Ty) : Spares name mentioned (declareName other type) :=
  fun a shadows => by
  have declared := Spares.declareInBlock other type a shadows
  unfold SparesFrom at declared ⊢
  rw [declareName_of_isOpen shadows.isOpen]
  exact declared

theorem introduces_declareName (name : String) (type : Ty) : Introduces name (declareName name type) where
  spares := spares_declareName name type
  declared a r b isOpen h := by
    rw [declareName_of_isOpen isOpen] at h
    cases h
    exact (Introduces.declareInBlock name type).declared a () _ isOpen rfl

theorem spares_declarator (declared : Option Ty) (d : Syntax.Declarator) (h : name ∈ d.initialNames → mentioned) :
    Spares name mentioned (ctx.declarator declared d) := by
  rw [declarator_eq]
  refine .bind (ctx.spares_expr? d.init declared h) fun init => ?_
  refine .bind (.check (ctx.asks_checkInitial declared init)) fun _ => ?_
  refine .bind (spares_declareName d.name _) fun _ => ?_
  exact .bind (.keep (.remember _) (.remember _)) fun _ => .pure _

theorem spares_declarators (declared : Option Ty) (ds : List Syntax.Declarator)
    (h : name ∈ ds.flatMap Syntax.Declarator.initialNames → mentioned) :
    Spares name mentioned (ctx.declarators declared ds) := by
  induction ds with
  | nil => exact .pure _
  | cons d ds ih =>
    simp only [List.flatMap_cons, List.mem_append, or_imp] at h
    unfold declarators
    exact .bind (ctx.spares_declarator declared d h.1) fun _ => .bind (ih h.2) fun _ => .pure _

/-- The declarator declares its name, if the initial value does not mention it. -/
theorem introduces_declarator (declared : Option Ty) (d : Syntax.Declarator) (h : d.name ∉ d.initialNames) :
    Introduces d.name (ctx.declarator declared d) := by
  rw [declarator_eq]
  refine .after (ctx.spares_expr? d.init declared h) fun init => ?_
  refine .after (.check (ctx.asks_checkInitial declared init)) fun _ => ?_
  refine .bind (introduces_declareName d.name _) fun _ => ?_
  exact .bind (.keep (.remember _) (.remember _)) fun _ => .pure _

theorem introduces_declarators (declared : Option Ty) (ds : List Syntax.Declarator)
    (h : Syntax.Declarator.DeclareFirst name ds) : Introduces name (ctx.declarators declared ds) := by
  induction ds with
  | nil => exact h.elim
  | cons d ds ih =>
    obtain ⟨unmentioned, rfl | later⟩ := h
    · refine .bind (ctx.introduces_declarator declared d unmentioned) fun _ => ?_
      exact .bind (ctx.spares_declarators declared ds fun _ => trivial) fun _ => .pure _
    · refine .after (ctx.spares_declarator declared d unmentioned) fun _ => ?_
      exact .bind (ih later) fun _ => .pure _

theorem spares_loopParts (init : Option Stmt) {cond : Option Syntax.Expr} {update : List Syntax.Expr}
    {body : List Syntax.Stmt} (hc : name ∈ (cond.map Syntax.Expr.names).getD [] → mentioned)
    (hu : name ∈ Syntax.Expr.namesAll update → mentioned) (hb : Spares name mentioned (ctx.stmts body)) :
    Spares name mentioned (ctx.loopParts init cond update body) := by
  unfold loopParts
  refine .bind (ctx.spares_condition? cond hc) fun cond => .bind (ctx.spares_exprs update hu) fun update => ?_
  exact .bind (.inBlock hb) fun _ => .pure _

mutual

/-- While the name is declared in an open block, or not mentioned, the analysis of a statement spares it. -/
theorem spares_stmt (s : Syntax.Stmt) (h : name ∈ s.names → mentioned) : Spares name mentioned (ctx.stmt s) := by
  -- by recursion on the statement: what a body declares is gone with its block, so that only its mentions count
  cases s with
  | expr e =>
    unfold stmt
    exact .bind (ctx.spares_expr e none h) fun _ => .pure _
  | declare type ds =>
    unfold stmt
    refine .bind (.check (ctx.asks_resolveType? type)) fun declared => ?_
    refine ctx.spares_declarators declared ds fun mention => ?_
    obtain ⟨d, listed, initial⟩ := List.mem_flatMap.1 mention
    exact h (List.mem_flatMap.2 ⟨d, listed, List.mem_append_left _ initial⟩)
  | branch cond thenBody elseBody =>
    cases elseBody with
    | none =>
      simp only [Syntax.Stmt.names, List.mem_append, or_imp] at h
      rw [stmt_branch_none]
      refine .bind (ctx.spares_condition cond h.1) fun cond => ?_
      exact .bind (.inBlock (spares_stmts thenBody h.2)) fun _ => .pure _
    | some elseBody =>
      simp only [Syntax.Stmt.names, List.mem_append, or_imp] at h
      rw [stmt_branch_some]
      refine .bind (ctx.spares_condition cond h.1.1) fun cond => ?_
      refine .bind (.inBlock (spares_stmts thenBody h.1.2)) fun _ => ?_
      exact .bind (.map _ (.inBlock (spares_stmts elseBody h.2))) fun _ => .pure _
  | whileLoop cond body =>
    simp only [Syntax.Stmt.names, List.mem_append, or_imp] at h
    rw [stmt_whileLoop]
    refine .bind (ctx.spares_condition cond h.1) fun cond => ?_
    exact .bind (.inBlock (spares_stmts body h.2)) fun _ => .pure _
  | forLoop init cond update body =>
    cases init with
    | none =>
      simp only [Syntax.Stmt.names, List.mem_append, or_imp] at h
      rw [stmt_forLoop_none]
      exact .inBlock (ctx.spares_loopParts none h.1.1 h.1.2 (spares_stmts body h.2))
    | some start =>
      simp only [Syntax.Stmt.names, List.mem_append, or_imp] at h
      rw [stmt_forLoop_some]
      refine .inBlock (.bind (spares_stmt start h.1.1.1) fun row => ?_)
      exact ctx.spares_loopParts (some (single row)) h.1.1.2 h.1.2 (spares_stmts body h.2)
  | forEach type item span items body =>
    simp only [Syntax.Stmt.names, List.mem_append, List.mem_cons, or_imp] at h
    rw [stmt_forEach]
    refine .bind (.check (ctx.asks_resolveType? type)) fun declared => ?_
    refine .bind (ctx.spares_expr items none h.1) fun items => ?_
    refine .bind (.check (ctx.asks_iteratedType items)) fun _ => ?_
    refine .bind (.inBlock (.bind (.declareInBlock item _) fun _ => ?_)) fun _ => .pure _
    exact .inBlock (spares_stmts body h.2.2)
  | block body =>
    rw [stmt_block]
    exact .bind (.inBlock (spares_stmts body h)) fun _ => .pure _
  | returns value =>
    unfold stmt
    exact .bind (ctx.spares_returned value h) fun _ => .pure _
  | importPath path everything span =>
    unfold stmt
    cases everything with
    | true =>
      exact .bind (.keep (ctx.keepsNames_importPackage path span) (ctx.keepsScopes_importPackage path span))
        fun _ => .pure _
    | false =>
      exact .bind (.keep (ctx.keepsNames_importClass path span) (ctx.keepsScopes_importClass path span))
        fun _ => .pure _
termination_by sizeOf s

theorem spares_stmts (ss : List Syntax.Stmt) (h : name ∈ Syntax.Stmt.namesAll ss → mentioned) :
    Spares name mentioned (ctx.stmts ss) := by
  cases ss with
  | nil =>
    unfold stmts
    exact .pure _
  | cons s ss =>
    simp only [Syntax.Stmt.namesAll, List.mem_append, or_imp] at h
    unfold stmts
    exact .bind (spares_stmt s h.1) fun _ => .bind (spares_stmts ss h.2) fun _ => .pure _
termination_by sizeOf ss

end

theorem introduces_stmt (s : Syntax.Stmt) (h : s.DeclaresFirst name) : Introduces name (ctx.stmt s) := by
  cases s with
  | declare type ds =>
    unfold stmt
    exact .after (.check (ctx.asks_resolveType? type)) fun declared => ctx.introduces_declarators declared ds h
  | _ => exact h.elim

theorem introduces_stmts (ss : List Syntax.Stmt) (h : Syntax.Stmt.DeclareFirst name ss) :
    Introduces name (ctx.stmts ss) := by
  induction ss with
  | nil => exact h.elim
  | cons s ss ih =>
    unfold stmts
    rcases h with first | ⟨unmentioned, later⟩
    · refine .bind (ctx.introduces_stmt s first) fun _ => ?_
      exact .bind (ctx.spares_stmts ss fun _ => trivial) fun _ => .pure _
    · refine .after (ctx.spares_stmt s unmentioned) fun _ => ?_
      exact .bind (ih later) fun _ => .pure _

/-! ## Regions -/

/-- **Declarations of a block stay in the block.** If the first mention of the name in a region is the region's own
declaration of it, then the analysis of the region leaves what the environment says of the name as it was, its place
included, whether the analysis fails or not. -/
theorem sameEntry_region (r : Region) (h : r.DeclaresFirst name) (a : AnalysisState) :
    a.env.SameEntry name (ctx.region r a).2.env := by
  cases r with
  | body ss => exact (ctx.introduces_stmts ss h).sameEntry_inBlock a
  | loop init cond update body =>
    obtain ⟨start, rfl, first⟩ := h
    rw [region, stmt_forLoop_some]
    have parts (row : List Stmt) : Spares name True (ctx.loopParts (some (single row)) cond update body) :=
      ctx.spares_loopParts _ (fun _ => trivial) (fun _ => trivial) (ctx.spares_stmts body fun _ => trivial)
    exact ((ctx.introduces_stmt start first).bind parts).sameEntry_inBlock a
  | items item type body =>
    obtain rfl : item = name := h
    have inside : Spares item True (ctx.region (.body body)) := .inBlock (ctx.spares_stmts body fun _ => trivial)
    exact ((Introduces.declareInBlock item type).bind fun _ => inside).sameEntry_inBlock a

/-- A block that hides a variable of the program, and steps and assigns its own, before the analysis of it fails. -/
def hidingBlock : String := "{ b = 1; int n = b; while (n < 3) { n++; { n = n + b; } } missing; }"

/-- The program is a block that first declares the name; its analysis fails, and has added the other variable. -/
def hides (ctx : Context) (name other : String) (a : AnalysisState) (ss : List Syntax.Stmt) : Bool :=
  match ss with
  | [.block body] =>
    Syntax.Stmt.DeclareFirst name body && (ctx.region (.body body) a).1.toOption.isNone
      && (ctx.region (.body body) a).2.env.vars.entryOf? other = some (2, .integer)
  | _ => false

/-- The block keeps the entry of the variable that it hides, while its other variable is added to the program. -/
theorem sameEntry_region_hidingBlock :
    let ctx : Context := ⟨.bare, .builtin, [], hidingBlock.toList⟩
    let env := ((Environment.ofConfig { Config.default with strong := true }).declare "a" .object).declare "n" .object
    let a := AnalysisState.ofEnvironment env
    ∃ body, Syntax.parse hidingBlock = .ok [.block body]
      ∧ (Region.body body).DeclaresFirst "n"
      ∧ (ctx.region (.body body) a).1.toOption = none
      ∧ (ctx.region (.body body) a).2.env.vars.entryOf? "b" = some (2, .integer)
      ∧ (ctx.region (.body body) a).2.env.vars.entryOf? "n" = some (1, .object) := by
  intro ctx env a
  have found : (Syntax.parse hidingBlock).toOption.any (ctx.hides "n" "b" a) := by decide +kernel
  obtain ⟨ss, parsed, checked⟩ := exists_ok_of_any found
  unfold hides at checked
  split at checked
  · rename_i body
    simp only [Bool.and_eq_true, decide_eq_true_eq, Option.isNone_iff_eq_none] at checked
    obtain ⟨⟨first, failed⟩, added⟩ := checked
    exact ⟨body, parsed, first, failed, added, (ctx.sameEntry_region (.body body) first a).vars⟩
  · cases checked

end Context

end HostExpr
