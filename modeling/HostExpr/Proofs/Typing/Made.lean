import HostExpr.Proofs.Call.Choice
import HostExpr.Proofs.Scope.Resolution
import HostExpr.Proofs.Typing.Checks
import HostExpr.Proofs.Typing.Parts
import HostExpr.Proofs.Typing.Steps

/-!
# What an analysis makes

From one state to a later one an analysis makes nodes. The call sites among them are numbered from where the first
state stands to where the later one does, no two of them alike, so that each number stands for one member; and each
node fits what is known in the later state. `made_stmts` says this of all parts of the statements that are made.

Names are only ever moved between inputs and variables: `Environment.Knows` is kept by every step. This is what ties
the nodes that read an input to the tables that the analysis ends with. No variable is given up, and an assignment that
declares its name finds none.
-/

namespace HostExpr

/-! ## Known names -/

namespace Environment

variable {env : Environment} {name : String}

/-- A name is an input, or a variable of the program. -/
def Knows (env : Environment) (name : String) : Prop := env.inputs.has name ∨ env.vars.has name

/-- A declaration makes an input a variable. -/
theorem Knows.declare (h : env.Knows name) (declared : String) (type : Ty) :
    (env.declare declared type).Knows name := by
  unfold Knows Environment.declare
  by_cases hn : name = declared
  · right
    simp [hn]
  · rcases h with h | h
    · left
      simpa [Table.has, hn] using h
    · right
      simp [h]

theorem Knows.addInput (h : env.Knows name) (input : String) (type : Ty) : (env.addInput input type).Knows name := by
  unfold Environment.addInput
  split
  · exact h
  · rcases h with h | h
    · left
      simp [h]
    · exact Or.inr h

/-- What is asked of the caller is an input, unless it is a variable already. -/
theorem knows_addInput (env : Environment) (input : String) (type : Ty) : (env.addInput input type).Knows input := by
  unfold Environment.addInput
  split
  · rename_i h
    exact Or.inr h
  · left
    simp

theorem Knows.rememberParams (h : env.Knows name) (params : List Ty) : (env.rememberParams params).Knows name := by
  unfold Environment.rememberParams
  split
  · exact h
  · exact h

theorem Knows.noteBlockNames (h : env.Knows name) (names : List String) :
    (names.foldl noteBlockName env).Knows name := by
  induction names generalizing env with
  | nil => exact h
  | cons n names ih =>
    refine ih ?_
    unfold noteBlockName
    split
    · exact h
    · exact h

/-! ### Variables -/

theorem has_declare (h : env.vars.has name) (declared : String) (type : Ty) :
    (env.declare declared type).vars.has name := by
  show (env.vars.put declared type).has name
  simp [h]

theorem has_addInput (h : env.vars.has name) (input : String) (type : Ty) :
    (env.addInput input type).vars.has name := by
  unfold Environment.addInput
  split <;> exact h

theorem has_rememberParams (h : env.vars.has name) (params : List Ty) :
    (env.rememberParams params).vars.has name := by
  unfold rememberParams
  split <;> exact h

theorem has_noteBlockNames (h : env.vars.has name) (names : List String) :
    (names.foldl noteBlockName env).vars.has name := by
  induction names generalizing env with
  | nil => exact h
  | cons n names ih =>
    refine ih ?_
    unfold noteBlockName
    split <;> exact h

end Environment

/-! ## What comes of a step -/

namespace Analysis

variable {α β : Type} {a : AnalysisState}

/-- Where the step succeeds, it gives a value and a state with a property. -/
def Yields (step : Analysis α) (a : AnalysisState) (Q : α → AnalysisState → Prop) : Prop :=
  ∀ ⦃r b⦄, step a = (.ok r, b) → Q r b

namespace Yields

variable {Q : α → AnalysisState → Prop}

theorem pure {r : α} (h : Q r a) : Yields (Pure.pure r) a Q := by
  intro r' b hr
  obtain ⟨rfl, rfl⟩ := pure_ok hr
  exact h

theorem fail (cause : CompileCause) (span : Span) : Yields (Analysis.fail cause span) a Q := by
  intro r b hr
  cases hr

/-- One step after the other; what is known of the first is that it succeeded. -/
theorem bind {x : Analysis β} {f : β → Analysis α} (h : ∀ q c, x a = (.ok q, c) → Yields (f q) c Q) :
    Yields (x >>= f) a Q := by
  intro r b hr
  obtain ⟨q, c, hx, hf⟩ := bind_ok hr
  exact h q c hx hf

/-- The state is looked at. -/
theorem get {f : AnalysisState → Analysis α} (h : Yields (f a) a Q) : Yields (MonadState.get >>= f) a Q := h

/-- The environment is looked at. -/
theorem env {f : Environment → Analysis α} (h : Yields (f a.env) a Q) : Yields (Analysis.env >>= f) a Q := h

end Yields

end Analysis

/-! ## Nodes -/

namespace World

open Typed

/-- A node fits an environment: an input is a known name, and a class node has the type of classes. A function or a
constructor that is chosen takes as many arguments as the node has. -/
def Fits (w : World) (env : Environment) : Expr → Prop
  | .input _ name _ => env.Knows name
  | .classRef info c => info.type = .classOf c
  | .functionCall _ i args => ∀ f, w.functions[i]? = some f → f.params.length = args.length
  | .construct _ c args chosen => ∀ i, chosen = some i →
    ∃ m, (w.classes.get c).constructors[i]? = some m ∧ m.arity = args.length
  | _ => True

/-- A node fits any environment that knows more names. -/
theorem Fits.mono {w : World} {env env' : Environment} {e : Expr} (h : w.Fits env e)
    (known : ∀ name, env.Knows name → env'.Knows name) : w.Fits env' e := by
  cases e with
  | input info name site => exact known name h
  | _ => exact h

end World

namespace Typed.Expr

/-- The name that an expression is, if something is known of what it holds. -/
def typedName? : Expr → Option String
  | .declared i name => if i.type.isDynamic then none else some name
  | _ => none

theorem of_typedName? {i : Info} {name other : String} (h : other ∈ (Expr.declared i name).typedName?) :
    other = name ∧ i.type.isDynamic = false := by
  unfold typedName? at h
  dsimp only at h
  split at h
  · cases h
  · rename_i static
    cases h
    exact ⟨rfl, by simpa using static⟩

/-- The name that an assignment declares: it stores a value as it comes, although something is known of what the name
holds. -/
def opened? : Expr → Option String
  | .assign _ target .plain _ none => target.typedName?
  | _ => none

end Typed.Expr

namespace Context

open Typed Analysis

/-- A node can be made between two states: it fits what is known in the later one, and a name that it declares is no
variable in the first one. -/
def Joins (ctx : Context) (a b : AnalysisState) : Expr → Prop
  | .assign _ target .plain _ none => ∀ name ∈ target.typedName?, ¬ a.env.vars.has name
  | e => ctx.world.Fits b.env e

theorem Joins.fits {ctx : Context} {a b : AnalysisState} {e : Expr} (h : ctx.Joins a b e) :
    ctx.world.Fits b.env e := by
  unfold Joins at h
  split at h
  · trivial
  · exact h

theorem Joins.opened {ctx : Context} {a b : AnalysisState} {e : Expr} (h : ctx.Joins a b e) :
    ∀ name ∈ e.opened?, ¬ a.env.vars.has name := by
  unfold Expr.opened?
  split
  · exact h
  · exact fun _ hn => by cases hn

/-- The nodes that an analysis makes from one state to another. -/
structure Made (ctx : Context) (a : AnalysisState) (nodes : List Expr) (b : AnalysisState) : Prop where
  counted : a.nextSite ≤ b.nextSite
  known : ∀ name, a.env.Knows name → b.env.Knows name
  within : ∀ e ∈ nodes, ∀ x ∈ e.access?, a.nextSite ≤ x.1 ∧ x.1 < b.nextSite
  distinct : nodes.Pairwise Expr.SitesDiffer
  fits : ∀ e ∈ nodes, ctx.world.Fits b.env e
  vars : ∀ name, a.env.vars.has name → b.env.vars.has name
  opened : ∀ e ∈ nodes, ∀ name ∈ e.opened?, ¬ a.env.vars.has name

variable {ctx : Context} {a b c : AnalysisState} {nodes more : List Expr}

namespace Made

/-- A step that makes no node, takes no number and forgets no name. -/
theorem idle (counted : b.nextSite = a.nextSite) (known : ∀ name, a.env.Knows name → b.env.Knows name)
    (vars : ∀ name, a.env.vars.has name → b.env.vars.has name) : ctx.Made a [] b where
  counted := Nat.le_of_eq counted.symm
  known := known
  within e he := by cases he
  distinct := .nil
  fits e he := by cases he
  vars := vars
  opened e he := by cases he

theorem refl (ctx : Context) (a : AnalysisState) : ctx.Made a [] a := idle rfl (fun _ h => h) fun _ h => h

/-- Nodes made one after the other. The numbers of the second are above those of the first. -/
theorem trans (h : ctx.Made a nodes b) (h' : ctx.Made b more c) : ctx.Made a (nodes ++ more) c where
  counted := Nat.le_trans h.counted h'.counted
  known name hn := h'.known name (h.known name hn)
  within e he x hx := by
    rcases List.mem_append.1 he with he | he
    · have := h.within e he x hx
      exact ⟨this.1, Nat.lt_of_lt_of_le this.2 h'.counted⟩
    · have := h'.within e he x hx
      exact ⟨Nat.le_trans h.counted this.1, this.2⟩
  -- the sites of the second part are numbered behind those of the first
  distinct := by
    refine List.pairwise_append.2 ⟨h.distinct, h'.distinct, fun e he e' he' x hx y hy same => ?_⟩
    have low := (h.within e he x hx).2
    have high := (h'.within e' he' y hy).1
    omega
  fits e he := by
    rcases List.mem_append.1 he with he | he
    · exact (h.fits e he).mono h'.known
    · exact h'.fits e he
  vars name hn := h'.vars name (h.vars name hn)
  opened e he name hn known := by
    rcases List.mem_append.1 he with he | he
    · exact h.opened e he name hn known
    · exact h'.opened e he name hn (h.vars name known)

/-- What is made of some nodes may leave others out. -/
theorem sublist (h : ctx.Made a nodes b) (part : more.Sublist nodes) : ctx.Made a more b where
  counted := h.counted
  known := h.known
  within e he := h.within e (part.subset he)
  distinct := h.distinct.sublist part
  fits e he := h.fits e (part.subset he)
  vars := h.vars
  opened e he := h.opened e (part.subset he)

/-- The order of the nodes does not count. -/
theorem perm (h : ctx.Made a nodes b) (order : nodes.Perm more) : ctx.Made a more b where
  counted := h.counted
  known := h.known
  within e he := h.within e (order.mem_iff.2 he)
  distinct := h.distinct.perm order Expr.SitesDiffer.symm
  fits e he := h.fits e (order.mem_iff.2 he)
  vars := h.vars
  opened e he := h.opened e (order.mem_iff.2 he)

/-- Each number stands for one member. -/
theorem single (h : ctx.Made a nodes b) : ∀ e ∈ nodes, ∀ e' ∈ nodes,
    ∀ x ∈ e.access?, ∀ y ∈ e'.access?, x.1 = y.1 → x.2 = y.2 := Expr.single_of_distinct h.distinct

/-- Nodes, and then a step that makes none. -/
theorem followed (h : ctx.Made a nodes b) (h' : ctx.Made b [] c) : ctx.Made a nodes c :=
  (h.trans h').sublist (List.sublist_append_left nodes [])

variable {α : Type} {r : α}

theorem checked (h : ctx.Made a nodes b) {x : Analysis α} (hx : Asks x) (hr : x b = (.ok r, c)) :
    ctx.Made a nodes c := by
  rw [hx.eq_of_ok hr]
  exact h

/-- A change of the environment that forgets no name. -/
theorem modified (h : ctx.Made a nodes b) {f : Environment → Environment}
    (known : ∀ name, b.env.Knows name → (f b.env).Knows name)
    (vars : ∀ name, b.env.vars.has name → (f b.env).vars.has name) {u : Unit} (hr : modifyEnv f b = (.ok u, c)) :
    ctx.Made a nodes c := by
  cases hr
  exact h.followed (idle rfl known vars)

theorem remembered (h : ctx.Made a nodes b) {t : Ty} {u : Unit} (hr : remember t b = (.ok u, c)) :
    ctx.Made a nodes c :=
  h.modified (fun _ hn => hn.rememberParams t.args) (fun _ hn => Environment.has_rememberParams hn t.args) hr

/-- A node without a call site of its own. -/
theorem node (h : ctx.Made a nodes b) (e : Expr) (ha : e.access? = none) (joins : ctx.Joins a b e) :
    ctx.Made a (e :: nodes) b where
  counted := h.counted
  known := h.known
  within e' he' x hx := by
    rcases List.mem_cons.1 he' with rfl | he'
    · rw [ha] at hx
      cases hx
    · exact h.within e' he' x hx
  distinct := by
    refine List.pairwise_cons.2 ⟨fun e' _ x hx => ?_, h.distinct⟩
    rw [ha] at hx
    cases hx
  fits e' he' := by
    rcases List.mem_cons.1 he' with rfl | he'
    · exact joins.fits
    · exact h.fits e' he'
  vars := h.vars
  opened e' he' := by
    rcases List.mem_cons.1 he' with rfl | he'
    · exact joins.opened
    · exact h.opened e' he'

/-- A node with a call site, whose number is the next. -/
theorem access (h : ctx.Made a nodes b) {site : Nat} (hs : newSite b = (.ok site, c)) (e : Expr) {m : Member}
    (ha : e.access? = some (site, m)) (hf : ctx.world.Fits b.env e) : ctx.Made a (e :: nodes) c := by
  cases hs
  -- the node alone takes the next number; with the nodes before, the order does not matter
  have own : ctx.Made b [e] { b with nextSite := b.nextSite + 1 } := by
    refine ⟨Nat.le_succ _, fun _ hn => hn, ?_, ?_, ?_, fun _ hn => hn, ?_⟩
    · intro e' he' x hx
      obtain rfl := List.mem_singleton.1 he'
      obtain rfl : (_, m) = x := Option.some.inj (ha.symm.trans hx)
      exact ⟨Nat.le_refl _, Nat.lt_succ_self _⟩
    · exact List.pairwise_singleton _ _
    · intro e' he'
      obtain rfl := List.mem_singleton.1 he'
      exact hf
    · intro e' he' name hn
      obtain rfl := List.mem_singleton.1 he'
      unfold Expr.opened? at hn
      split at hn
      · cases ha
      · cases hn
  exact (h.trans own).perm List.perm_append_comm

end Made

end Context

end HostExpr
