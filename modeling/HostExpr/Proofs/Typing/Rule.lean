import HostExpr.Proofs.Typing.Nodes

/-!
# Typing rules

Why a node has its type is a matter of the node, of the static types of its operands and of the settings that the
analysis starts from, which it never changes. `Context.Rule` says it for each kind of node: the type is what the typing
functions answer for the operands, and the checks that go with the node were passed. `rule_of_compile` says that every
part of a compiled program obeys its rule.

The type of a name depends on the place: `Expr.Named` says that it is the one that the open scopes, or else the tables
of the environment, record for the name. What an analysis of an expression learns of names stays as it is.
-/

namespace HostExpr

open Typed

/-- The settings that an analysis does not change are those of a configuration. -/
structure Environment.Under (env : Environment) (config : Config) : Prop where
  strong : env.strong = config.strong
  strict : env.strict = config.strict
  context : env.context? = config.context?

/-- A member of the root that is written as a name: the root has no text of its own. -/
def Typed.Expr.isBare : Expr → Bool
  | .property i (.this j) _ _ => j.span = i.span
  | _ => false

namespace Analysis

/-- The step gives an answer somewhere under the settings. -/
def Answers {α : Type} (config : Config) (step : Analysis α) (r : α) : Prop :=
  ∃ a b, a.env.Under config ∧ step a = (.ok r, b)

/-- Under strong typing strong is what a step finds. -/
theorem strong_apply {config : Config} {a : AnalysisState} (h : a.env.Under config) :
    strong a = (.ok config.strong, a) := by
  rw [← h.strong]
  rfl

end Analysis

/-! ## Known names -/

namespace Environment

/-- No variable is an input. -/
def Apart (env : Environment) : Prop := ∀ name, env.vars.get? name = none ∨ env.inputs.get? name = none

/-- What is known of variables and inputs stays known, and of the inputs that are new nothing is known. -/
structure Grows (env env' : Environment) : Prop where
  vars : ∀ {name : String} {t : Ty}, env.vars.get? name = some t → env'.vars.get? name = some t
  inputs : ∀ {name : String} {t : Ty}, env.inputs.get? name = some t → env'.inputs.get? name = some t
  asked : ∀ {name : String} {t : Ty}, env'.inputs.get? name = some t → env.inputs.get? name = some t ∨ t = .object
  apart : env.Apart → env'.Apart

variable {env env' env'' : Environment}

theorem Grows.refl (env : Environment) : env.Grows env := ⟨fun h => h, fun h => h, .inl, fun h => h⟩

theorem Grows.trans (h : env.Grows env') (h' : env'.Grows env'') : env.Grows env'' where
  vars ht := h'.vars (h.vars ht)
  inputs ht := h'.inputs (h.inputs ht)
  asked ht := by
    rcases h'.asked ht with ht | top
    · exact h.asked ht
    · exact .inr top
  apart ha := h'.apart (h.apart ha)

/-- Where the tables are the same. -/
theorem Grows.of_eq (vars : env'.vars = env.vars) (inputs : env'.inputs = env.inputs) : env.Grows env' where
  vars ht := vars ▸ ht
  inputs ht := inputs ▸ ht
  asked ht := .inl (inputs ▸ ht)
  apart ha name := by
    rw [vars, inputs]
    exact ha name

/-- A declared variable is no input. -/
theorem Apart.declare (h : env.Apart) (name : String) (type : Ty) : (env.declare name type).Apart := by
  intro other
  show (env.vars.put name type).get? other = none ∨ (env.inputs.erase name).get? other = none
  rw [Table.get?_put, Table.get?_erase]
  by_cases same : other = name
  · exact .inr (if_pos same)
  · rw [if_neg same, if_neg same]
    exact h other

theorem Under.addInput {config : Config} (h : env.Under config) (name : String) (type : Ty) :
    (env.addInput name type).Under config := by
  unfold Environment.addInput
  split
  · exact h
  · exact ⟨h.strong, h.strict, h.context⟩

end Environment

namespace AnalysisState

/-- The second state knows all that the first one knows. -/
structure Before (a b : AnalysisState) : Prop where
  grows : a.env.Grows b.env
  returns : a.returns ⊆ b.returns

theorem Before.refl (a : AnalysisState) : a.Before a := ⟨.refl _, fun _ h => h⟩

theorem Before.trans {a b c : AnalysisState} (h : a.Before b) (h' : b.Before c) : a.Before c :=
  ⟨h.grows.trans h'.grows, fun _ ht => h'.returns (h.returns ht)⟩

/-- The name is no variable and no input. -/
structure Fresh (a : AnalysisState) (name : String) : Prop where
  scopes : a.scopes.lookup name = none
  vars : a.env.vars.get? name = none
  inputs : a.env.inputs.get? name = none

namespace Fresh

variable {a : AnalysisState} {name : String}

/-- A declaration of the name changes nothing that is known of the others. -/
theorem grows_declare (h : a.Fresh name) (type : Ty) : a.env.Grows (a.env.declare name type) where
  vars {other t} ht := by
    have differs : other ≠ name := fun same => by rw [same, h.vars] at ht; cases ht
    rw [Environment.declare, Table.get?_put, if_neg differs]
    exact ht
  inputs {other t} ht := by
    have differs : other ≠ name := fun same => by rw [same, h.inputs] at ht; cases ht
    rw [Environment.declare, Table.get?_erase, if_neg differs]
    exact ht
  asked {other t} ht := by
    rw [Environment.declare, Table.get?_erase] at ht
    split at ht
    · cases ht
    · exact .inl ht
  apart ha := ha.declare name type

theorem addInput_eq (h : a.Fresh name) (type : Ty) :
    a.env.addInput name type = { a.env with inputs := a.env.inputs.put name type } := by
  unfold Environment.addInput
  rw [Table.has, h.vars]
  rfl

theorem get?_addInput (h : a.Fresh name) (type : Ty) : (a.env.addInput name type).inputs.get? name = some type := by
  rw [h.addInput_eq, Table.get?_put, if_pos rfl]

theorem grows_addInput (h : a.Fresh name) : a.env.Grows (a.env.addInput name .object) := by
  rw [h.addInput_eq]
  refine ⟨fun ht => ht, fun {other t} ht => ?_, fun {other t} ht => ?_, fun ha other => ?_⟩
  · have differs : other ≠ name := fun same => by rw [same, h.inputs] at ht; cases ht
    rw [Table.get?_put, if_neg differs]
    exact ht
  · rw [Table.get?_put] at ht
    split at ht
    · cases ht
      exact .inr rfl
    · exact .inl ht
  · show a.env.vars.get? other = none ∨ (a.env.inputs.put name .object).get? other = none
    rw [Table.get?_put]
    split
    · rename_i same
      exact .inl (same ▸ h.vars)
    · exact ha other

end Fresh

end AnalysisState

namespace Typed.Expr

/-- The type of a name is what is recorded for it: in the innermost scope that declares it, or else for the whole
program. -/
def Named (Θ : Scopes Ty) (env : Environment) : Expr → Prop
  | .declared i name => (Θ.lookup name).or (env.vars.get? name) = some i.type
  | .input i name _ => env.inputs.get? name = some i.type
  | _ => True

theorem Named.mono {Θ : Scopes Ty} {env env' : Environment} {e : Expr} (h : e.Named Θ env) (grows : env.Grows env') :
    e.Named Θ env' := by
  cases e with
  | declared i name =>
    have h : (Θ.lookup name).or (env.vars.get? name) = some i.type := h
    show (Θ.lookup name).or (env'.vars.get? name) = some i.type
    cases hs : Θ.lookup name with
    | some t =>
      rw [hs] at h
      exact h
    | none =>
      rw [hs] at h
      exact grows.vars h
  | input i name site => exact grows.inputs h
  | _ => trivial

theorem named_of_scopes {Θ : Scopes Ty} {env : Environment} {name : String} {t : Ty} (h : Θ.lookup name = some t)
    (span : Span) : (Expr.declared ⟨t, span⟩ name).Named Θ env := by
  show (Θ.lookup name).or _ = some t
  rw [h]
  rfl

theorem named_of_vars {Θ : Scopes Ty} {env : Environment} {name : String} {t : Ty} (hs : Θ.lookup name = none)
    (h : env.vars.get? name = some t) (span : Span) : (Expr.declared ⟨t, span⟩ name).Named Θ env := by
  show (Θ.lookup name).or (env.vars.get? name) = some t
  rw [hs, h]
  rfl

end Typed.Expr

namespace Context

open Analysis

variable (ctx : Context) (config : Config)

/-! ## The rules -/

/-- The target of a plain assignment, for a value of a type, with the type that it stores: the target was checked
where it is written out, a member of the root that is written as a name was not, and a name that stands for nothing
takes the type of the value. -/
inductive Takes : Expr → Ty → Option Ty → Prop
  | written {target : Expr} {span : Span} {value : Ty} (checked : Answers config (ctx.checkWritable target span) ()) :
      Takes target value (storedType? target.type)
  | bare {target : Expr} {value : Ty} (h : target.isBare) : Takes target value (storedType? target.type)
  | declared (name : String) (span : Span) (value : Ty) :
      Takes (.declared ⟨if value.isNull then .object else value, span⟩ name) value none

/-- The typing rule of a node. -/
def Rule : Expr → Prop
  | .constant i v => i.type = v.type
  | .declared .. | .input .. => True
  | .this i => i.type = config.context?.getD .object
  | .classRef i c => i.type = .classOf c
  | .staticField i c name => ∃ e, Answers config (ctx.property e name i.span) (.staticField i c name)
  | .property i e name site =>
    Answers config (ctx.propertyType e.type name i.span) i.type ∨
      (Expr.property i e name site).isBare ∧ config.context?.bind (ctx.readType? · name) = some i.type
  | .methodCall i e name args _ => Answers config (ctx.callType e name (args.map Expr.type) i.span) i.type
  | .functionCall i n args => ∃ f, ctx.world.functions[n]? = some f ∧ i.type = f.result ∧
    ctx.resolveOverload [f.params] (args.map Expr.type) ≠ .noMatch
  | .convert i _ target => i.type = (target.classMeant?.map Ty.raw).getD .object
  | .index i e _ _ => Answers config (ctx.indexType e.type i.span) i.type
  | .assign i target .plain v stored => i.type = stored.getD v.type ∧ ctx.Takes config target v.type stored
  | .assign i target (.compound op) v stored =>
    ∃ result, Answers config (ctx.arithType op target.type v.type i.span) result ∧
      stored = storedType? target.type ∧ i.type = stored.getD result
  | .arith i op a b => Answers config (ctx.arithType op a.type b.type i.span) i.type
  | .logic i _ _ _ | .compare i _ _ _ => i.type = .boolean
  | .unary i op e => Answers config (ctx.unaryType op e.type i.span) i.type
  | .step i _ target => i.type = target.type
  | .cast i type _ => i.type = type
  | .conditional i _ a b => i.type = ctx.classes.unify a.type b.type
  | .construct i c args chosen => i.type.cls = c ∧
    Answers config (ctx.chosenConstructor i.type (args.map Expr.type) i.span) chosen
  | .newArray i item _ | .newSized i item _ => i.type = .arrayOf item
  | .inlineList i items => i.type = .listOf (ctx.classes.commonType (items.map Expr.type))
  | .inlineMap i entries => i.type = .mapOf (ctx.classes.commonType (entries.map (·.1.type)))
    (ctx.classes.commonType (entries.map (·.2.type)))

/-- A node obeys its rule, and a name is one that is known. -/
structure Obeys (Θ : Scopes Ty) (z : AnalysisState) (e : Expr) : Prop where
  rule : ctx.Rule config e
  named : e.Named Θ z.env

/-! ## What analysis makes obeys the rules -/

/-- From the first state to the second one an analysis makes nodes that obey their rules, among the names of the scopes,
which stay as they are, and of the environment, which only learns. -/
structure Ruled (a : AnalysisState) (nodes : List Expr) (b : AnalysisState) : Prop where
  under : b.env.Under config
  scopes : b.scopes = a.scopes
  before : a.Before b
  obeys : ∀ e ∈ nodes, ctx.Obeys config a.scopes b e

variable {ctx config} {a₀ a b c : AnalysisState} {nodes more : List Expr}

/-- What obeys its rule still does when more is known. -/
theorem Obeys.mono {Θ : Scopes Ty} {z z' : AnalysisState} {e : Expr} (h : ctx.Obeys config Θ z e) (later : z.Before z') :
    ctx.Obeys config Θ z' e := ⟨h.rule, h.named.mono later.grows⟩

namespace Ruled

theorem refl (under : a.env.Under config) : ctx.Ruled config a [] a where
  under := under
  scopes := rfl
  before := .refl a
  obeys e he := by cases he

theorem subset (h : ctx.Ruled config a nodes b) (within : more ⊆ nodes) : ctx.Ruled config a more b where
  under := h.under
  scopes := h.scopes
  before := h.before
  obeys e he := h.obeys e (within he)

/-- Nodes made one after the other. -/
theorem trans (h : ctx.Ruled config a nodes b) (h' : ctx.Ruled config b more c) : ctx.Ruled config a (nodes ++ more) c where
  under := h'.under
  scopes := h'.scopes.trans h.scopes
  before := h.before.trans h'.before
  obeys e he := by
    rcases List.mem_append.1 he with he | he
    · exact (h.obeys e he).mono h'.before
    · rw [← h.scopes]
      exact h'.obeys e he

/-- Nodes, and then a step that makes none. -/
theorem followed (h : ctx.Ruled config a nodes b) (h' : ctx.Ruled config b [] c) : ctx.Ruled config a nodes c :=
  (h.trans h').subset (List.subset_append_left nodes [])

/-- One more node. -/
theorem node (h : ctx.Ruled config a nodes b) {e : Expr} (rule : ctx.Rule config e) (named : e.Named a.scopes b.env) :
    ctx.Ruled config a (e :: nodes) b where
  under := h.under
  scopes := h.scopes
  before := h.before
  obeys e' he' := by
    rcases List.mem_cons.1 he' with rfl | he'
    · exact ⟨rule, named⟩
    · exact h.obeys e' he'

variable {α : Type} {r : α}

theorem checked (h : ctx.Ruled config a nodes b) {x : Analysis α} (hx : Asks x) (hr : x b = (.ok r, c)) :
    ctx.Ruled config a nodes c := by
  rw [hx.eq_of_ok hr]
  exact h

/-- A change of the environment that learns, and leaves the settings alone. -/
theorem modified (h : ctx.Ruled config a nodes b) {f : Environment → Environment}
    (under : b.env.Under config → (f b.env).Under config) (grows : b.env.Grows (f b.env)) {u : Unit}
    (hr : modifyEnv f b = (.ok u, c)) : ctx.Ruled config a nodes c := by
  cases hr
  exact h.followed ⟨under h.under, rfl, ⟨grows, fun _ ht => ht⟩, fun e he => by cases he⟩

theorem remembered (h : ctx.Ruled config a nodes b) {t : Ty} {u : Unit} (hr : remember t b = (.ok u, c)) :
    ctx.Ruled config a nodes c := by
  refine h.modified (fun under => ?_) (.of_eq ?_ ?_) hr
  · unfold Environment.rememberParams
    split
    · exact under
    · exact ⟨under.strong, under.strict, under.context⟩
  all_goals
    unfold Environment.rememberParams
    split <;> rfl

theorem numbered (h : ctx.Ruled config a nodes b) {site : Nat} (hr : newSite b = (.ok site, c)) :
    ctx.Ruled config a nodes c := by
  cases hr
  exact h.followed ⟨h.under, rfl, ⟨.refl _, fun _ ht => ht⟩, fun e he => by cases he⟩

/-- What a step answered, it answers under the settings. -/
theorem answers (h : ctx.Ruled config a nodes b) {x : Analysis α} (hr : x b = (.ok r, c)) : Answers config x r :=
  ⟨b, c, h.under, hr⟩

end Ruled

/-! ## Names -/

section Names

variable (under : a.env.Under config) {name : String}
include under

theorem ruled_inputNode {type : Ty} (known : a.env.inputs.get? name = some type) (span : Span) :
    Yields (inputNode name type span) a fun r b => ctx.Ruled config a r.parts b := by
  refine .bind fun site c taken => .pure ?_
  have given : ctx.Ruled config a [] c := (Ruled.refl under).numbered taken
  exact given.node trivial (given.before.grows.inputs known)

/-- A name that stands for nothing is declared. -/
theorem ruled_declare (fresh : a.Fresh name) (type : Ty) (span : Span) :
    Yields (do
      modifyEnv (·.declare name type)
      return Expr.declared ⟨type, span⟩ name) a fun r b => ctx.Ruled config a r.parts b := by
  refine .bind fun _ c declared => .pure ?_
  have given : ctx.Ruled config a [] c := (Ruled.refl under).modified
    (fun h => ⟨h.strong, h.strict, h.context⟩) (fresh.grows_declare type) declared
  refine given.node trivial ?_
  cases declared
  show (a.scopes.lookup name).or ((a.env.declare name type).vars.get? name) = some type
  rw [fresh.scopes, Environment.declare, Table.get?_put, if_pos rfl]
  rfl

theorem ruled_unknownName (fresh : a.Fresh name) (span : Span) :
    Yields (unknownName name span) a fun r b => ctx.Ruled config a r.parts b := by
  unfold unknownName
  refine .env ?_
  split
  · exact .fail _ _
  · split
    · exact ruled_declare under fresh .object span
    · refine .bind fun _ c added => ?_
      have kept : ctx.Ruled config a [] c :=
        (Ruled.refl under).modified (fun h => h.addInput name .object) fresh.grows_addInput added
      have known : c.env.inputs.get? name = some .object := by
        cases added
        exact fresh.get?_addInput .object
      intro r b read
      exact (kept.trans (ruled_inputNode kept.under known span read)).subset (List.subset_append_right _ _)

theorem rule_thisNode (ctx : Context) (span : Span) : ctx.Rule config (thisNode a.env span) := by
  show a.env.context?.getD .object = _
  rw [under.context]

theorem ruled_thisNode (ctx : Context) (span : Span) : ctx.Ruled config a (thisNode a.env span).parts a :=
  (Ruled.refl under).node (rule_thisNode under ctx span) trivial

theorem ruled_classNode (ctx : Context) (c : ClassRef) (span : Span) : ctx.Ruled config a (classNode c span).parts a :=
  (Ruled.refl under).node rfl trivial

theorem ruled_freeName (fresh : a.Fresh name) (span : Span) :
    Yields (ctx.freeName name span) a fun r b => ctx.Ruled config a r.parts b := by
  unfold freeName
  refine .env ?_
  split
  · exact .pure (ruled_thisNode under ctx span)
  · split
    · exact .pure (ruled_classNode under ctx _ span)
    · split
      · rename_i type found
        refine .bind fun _ c remembered => .bind fun site d taken => .pure ?_
        have root := ((ruled_thisNode under ctx span).remembered remembered).numbered taken
        refine root.node (Or.inr ⟨?_, ?_⟩) trivial
        · simp [thisNode, Expr.isBare]
        · rw [← found, rootMemberType?, under.context]
      · split
        · exact .pure (ruled_classNode under ctx _ span)
        · exact ruled_unknownName under fresh span

theorem ruled_ident (name : String) (span : Span) :
    Yields (ctx.ident name span) a fun r b => ctx.Ruled config a r.parts b := by
  have given : ctx.Ruled config a [] a := .refl under
  unfold ident
  refine .get ?_
  split
  · rename_i type declared
    exact .pure (given.node trivial (Expr.named_of_scopes declared span))
  · rename_i hs
    -- a name is looked up in the blocks, the variables, the inputs, and then it is free
    have hs := Option.eq_none_iff_forall_ne_some.2 hs
    split
    · rename_i type declared
      refine .bind fun _ c remembered => .pure ?_
      have given := given.remembered remembered
      exact given.node trivial (Expr.named_of_vars hs (given.before.grows.vars declared) span)
    · rename_i hv
      have hv := Option.eq_none_iff_forall_ne_some.2 hv
      split
      · rename_i type known
        refine .bind fun _ c remembered => ?_
        have given := given.remembered remembered
        intro r b read
        exact (given.trans (ruled_inputNode given.under (given.before.grows.inputs known) span read)).subset
          (List.subset_append_right _ _)
      · rename_i hi
        exact ruled_freeName under ⟨hs, hv, Option.eq_none_iff_forall_ne_some.2 hi⟩ span

end Names

/-! ## Members and calls -/

theorem ruled_property {receiver : Expr} (given : ctx.Ruled config a₀ receiver.parts a) (name : String) (span : Span) :
    Yields (ctx.property receiver name span) a fun r b => ctx.Ruled config a₀ r.parts b := by
  intro r b made
  -- the access as a whole, which is not to be opened below
  obtain ⟨Made, hMade⟩ : ∃ Made : Expr → Prop, ∀ r, Made r ↔ Answers config (ctx.property receiver name span) r :=
    ⟨_, fun _ => Iff.rfl⟩
  have each : Yields (ctx.property receiver name span) a fun r b => Made r → ctx.Ruled config a₀ r.parts b := by
    unfold property
    dsimp only
    split
    · refine .bind fun _ d remembered => .pure fun whole => ?_
      have kept := (given.remembered remembered).subset (List.nil_subset _)
      exact kept.node ⟨receiver, (hMade _).1 whole⟩ trivial
    · refine .bind fun type c typed => .bind fun _ d remembered => .bind fun site d' taken => .pure fun _ => ?_
      have operand := given.checked (ctx.asks_propertyType _ name span) typed
      exact ((operand.remembered remembered).numbered taken).node (Or.inl (given.answers typed)) trivial
  exact each made ((hMade r).2 (given.answers made))

theorem ruled_propertyChain {e : Expr} (given : ctx.Ruled config a₀ e.parts a) (span : Span) (names : List String) :
    Yields (ctx.propertyChain span e names) a fun r b => ctx.Ruled config a₀ r.parts b := by
  induction names generalizing e a with
  | nil => exact .pure given
  | cons name names ih =>
    unfold propertyChain
    exact .bind fun e' c first => ih (ruled_property given name span first)

theorem ruled_methodCall {receiver : Expr} {args : List Expr}
    (given : ctx.Ruled config a₀ (receiver.parts ++ Expr.partsAll args) a) (name : String) (span : Span) :
    Yields (ctx.methodCall receiver name args span) a fun r b => ctx.Ruled config a₀ r.parts b := by
  unfold methodCall
  refine .bind fun type c typed => .bind fun _ d remembered => .bind fun site d' taken => .pure ?_
  have operands := given.checked (ctx.asks_callType receiver name _ span) typed
  exact ((operands.remembered remembered).numbered taken).node (given.answers typed) trivial

theorem ruled_callFunction {args : List Expr} (given : ctx.Ruled config a₀ (Expr.partsAll args) a) (name : String)
    (span : Span) : Yields (ctx.callFunction name args span) a fun r b => ctx.Ruled config a₀ r.parts b := by
  unfold callFunction
  refine .env ?_
  split
  · rename_i i f named
    dsimp only
    split
    · exact .fail _ _
    · rename_i fits
      exact .pure (given.node ⟨f, getElem?_of_functionNamed? named, rfl, fits⟩ trivial)
  · exact ruled_methodCall (given.node (rule_thisNode given.under ctx span) trivial) name span

theorem ruled_callNamed {args : List Expr} (given : ctx.Ruled config a₀ (Expr.partsAll args) a) (name : String)
    (span : Span) : Yields (ctx.callNamed name args span) a fun r b => ctx.Ruled config a₀ r.parts b := by
  unfold callNamed
  split
  · rename_i value target
    have both : Expr.partsAll [value, target] = value.parts ++ target.parts := by
      rw [Expr.partsAll_cons, Expr.partsAll_cons, Expr.partsAll, List.append_nil]
    rw [both] at given
    exact .pure (given.node rfl trivial)
  · exact ruled_callFunction given name span

theorem ruled_index {receiver position : Expr} (given : ctx.Ruled config a₀ (receiver.parts ++ position.parts) a)
    (span : Span) : Yields (ctx.index receiver position span) a fun r b => ctx.Ruled config a₀ r.parts b := by
  unfold index
  refine .bind fun type c typed => .bind fun _ d remembered => .bind fun site d' taken => .pure ?_
  have operands := given.checked (ctx.asks_indexType _ span) typed
  exact ((operands.remembered remembered).numbered taken).node (given.answers typed) trivial

theorem ruled_construct {args : List Expr} (given : ctx.Ruled config a₀ (Expr.partsAll args) a) (type : Ty)
    (span : Span) : Yields (ctx.construct type args span) a fun r b => ctx.Ruled config a₀ r.parts b := by
  unfold construct
  refine .bind fun chosen c choice => .bind fun _ d remembered => .pure ?_
  have operands := given.checked (ctx.asks_chosenConstructor type _ span) choice
  exact (operands.remembered remembered).node ⟨rfl, given.answers choice⟩ trivial

/-! ## Containers -/

theorem ruled_inlineList {items : List Expr} (given : ctx.Ruled config a₀ (Expr.partsAll items) a) (span : Span) :
    Yields (ctx.inlineList items span) a fun r b => ctx.Ruled config a₀ r.parts b :=
  .bind fun _ _ remembered => .pure ((given.remembered remembered).node rfl trivial)

theorem ruled_inlineMap {entries : List (Expr × Expr)} (given : ctx.Ruled config a₀ (Expr.partsEntries entries) a)
    (span : Span) : Yields (ctx.inlineMap entries span) a fun r b => ctx.Ruled config a₀ r.parts b :=
  .bind fun _ _ remembered => .pure ((given.remembered remembered).node rfl trivial)

/-! ## Assignment -/

/-- A node that a name stands for is a member only if it is one of the root, written as a name. -/
theorem yields_ident (name : String) (span : Span) :
    Yields (ctx.ident name span) a fun r _ => (∀ e n site, r ≠ .property r.info e n site) ∨ r.isBare := by
  have plain {r : Expr} {b : AnalysisState} (h : ∀ e n site, r ≠ .property r.info e n site) :
      Yields (pure r) b fun r _ => (∀ e n site, r ≠ .property r.info e n site) ∨ r.isBare := .pure (Or.inl h)
  unfold ident
  refine .get ?_
  split
  · exact plain fun _ _ _ => Expr.noConfusion
  · split
    · exact .bind fun _ c _ => plain fun _ _ _ => Expr.noConfusion
    · split
      · exact .bind fun _ c _ => .bind fun _ d _ => plain fun _ _ _ => Expr.noConfusion
      · unfold freeName
        refine .env ?_
        split
        · exact plain fun _ _ _ => Expr.noConfusion
        · split
          · exact plain fun _ _ _ => Expr.noConfusion
          · split
            · refine .bind fun _ c _ => .bind fun _ d _ => .pure (Or.inr ?_)
              simp [thisNode, Expr.isBare]
            · split
              · exact plain fun _ _ _ => Expr.noConfusion
              · unfold unknownName
                refine .env ?_
                split
                · exact .fail _ _
                · split
                  · exact .bind fun _ c _ => plain fun _ _ _ => Expr.noConfusion
                  · refine .bind fun _ c _ => .bind fun _ d _ => plain fun _ _ _ => Expr.noConfusion

/-- What is no member can be written as far as the check for members goes. -/
theorem Takes.of_not_property (ctx : Context) {target : Expr} (h : ∀ e n site, target ≠ .property target.info e n site)
    (under : a.env.Under config) (span : Span) (value : Ty) :
    ctx.Takes config target value (storedType? target.type) := by
  have passes : ctx.checkWritable target span a = (.ok (), a) := by
    unfold checkWritable
    split
    · exact absurd rfl (h _ _ _)
    · rfl
  exact .written ⟨a, a, under, passes⟩

theorem ruled_assignedName (under : a.env.Under config) (name : String) (span : Span) (value : Ty) :
    Yields (ctx.assignedName name span value) a fun r b =>
      ctx.Ruled config a r.1.parts b ∧ ctx.Takes config r.1 value r.2 := by
  have declared (type : Ty) : ctx.Takes config (.declared ⟨type, span⟩ name) value (storedType? type) :=
    .of_not_property ctx (fun _ _ _ => Expr.noConfusion) under span value
  unfold assignedName
  refine .get ?_
  split
  · rename_i type found
    exact .pure ⟨(Ruled.refl under).node trivial (Expr.named_of_scopes found span), declared _⟩
  · rename_i hs
    have hs := Option.eq_none_iff_forall_ne_some.2 hs
    split
    · rename_i type found
      exact .pure ⟨(Ruled.refl under).node trivial (Expr.named_of_vars hs found span), declared _⟩
    · rename_i hv
      have hv := Option.eq_none_iff_forall_ne_some.2 hv
      split
      · rename_i type known
        refine .bind fun node c read => .pure ⟨ruled_inputNode under known span read, ?_⟩
        obtain ⟨site, d, -, made⟩ := bind_ok read
        obtain ⟨rfl, -⟩ := pure_ok made
        exact .of_not_property ctx (fun _ _ _ => Expr.noConfusion) under span value
      · rename_i hi
        split
        · refine .bind fun target c named => .bind fun _ d assignable => .pure ⟨?_, ?_⟩
          · exact (ruled_ident under name span named).checked (ctx.asks_checkAssignable _ _) assignable
          · rcases yields_ident name span named with plain | bare
            · exact .of_not_property ctx plain under span value
            · exact .bare bare
        · -- a name that nothing knows is declared by the assignment
          have fresh : a.Fresh name := ⟨hs, hv, Option.eq_none_iff_forall_ne_some.2 hi⟩
          refine .bind fun _ c added => .pure ⟨?_, .declared name span value⟩
          cases added
          exact ruled_declare under fresh _ span rfl

theorem ruled_checkedTarget {analyzed : Analysis Expr} (value : Ty)
    (given : Yields analyzed a fun r b => ctx.Ruled config a r.parts b) (span : Span) :
    Yields (ctx.checkedTarget analyzed span) a fun r b =>
      ctx.Ruled config a r.1.parts b ∧ ctx.Takes config r.1 value r.2 := by
  refine .bind fun node c made => .bind fun _ d writable => .bind fun _ d' assignable => .pure ⟨?_, ?_⟩
  · have made := (given made).checked (ctx.asks_checkWritable node span) writable
    exact made.checked (ctx.asks_checkAssignable node _) assignable
  · exact .written ((given made).answers writable)

theorem ruled_assignedTarget (under : a.env.Under config) (target : Syntax.Expr) {analyzed : Analysis Expr}
    (value : Ty) (given : Yields analyzed a fun r b => ctx.Ruled config a r.parts b) :
    Yields (ctx.assignedTarget target analyzed value) a fun r b =>
      ctx.Ruled config a r.1.parts b ∧ ctx.Takes config r.1 value r.2 := by
  obtain ⟨span, name, rfl⟩ | read | refused := assignedTarget_cases target
  · exact ruled_assignedName under name span value
  · rw [read]
    exact ruled_checkedTarget value given _
  · rw [refused]
    exact .fail _ _

theorem ruled_plainAssignment {value target : Expr} {stored : Option Ty}
    (given : ctx.Ruled config a₀ (target.parts ++ value.parts) a) (takes : ctx.Takes config target value.type stored)
    (span : Span) : Yields (ctx.plainAssignment value target stored span) a fun r b => ctx.Ruled config a₀ r.parts b := by
  have node := given.node (e := .assign ⟨stored.getD value.type, span⟩ target .plain value stored) ⟨rfl, takes⟩ trivial
  unfold plainAssignment
  cases stored with
  | none => exact .pure node
  | some type => exact .bind fun _ c checked => .pure (node.checked (ctx.asks_checkCoercion _ _ _) checked)

theorem ruled_compoundAssignment {target value : Expr} (given : ctx.Ruled config a₀ (target.parts ++ value.parts) a)
    (op : ArithOp) (span : Span) :
    Yields (ctx.compoundAssignment op target value span) a fun r b => ctx.Ruled config a₀ r.parts b := by
  unfold compoundAssignment
  refine .bind fun _ c assignable => .bind fun result d typed => ?_
  have operands := given.checked (ctx.asks_checkAssignable target _) assignable
  have answer := operands.answers typed
  have operands := operands.checked (ctx.asks_arithType op _ _ span) typed
  have node : ctx.Ruled config a₀ (Expr.parts (.assign ⟨(storedType? target.type).getD result, span⟩ target (.compound op)
      value (storedType? target.type))) d := operands.node ⟨result, answer, rfl, rfl⟩ trivial
  dsimp only
  generalize storedType? target.type = stored at node ⊢
  cases stored with
  | none => exact .pure node
  | some type => exact .bind fun _ c checked => .pure (node.checked (ctx.asks_checkCoercion _ _ _) checked)

theorem ruled_stepNode {target : Expr} (given : ctx.Ruled config a₀ target.parts a) (op : StepOp) (span : Span) :
    Yields (ctx.stepNode op target span) a fun r b => ctx.Ruled config a₀ r.parts b := by
  unfold stepNode
  refine .bind fun _ c assignable => .bind fun strong d asked => ?_
  have operand := given.checked (ctx.asks_checkAssignable target span) assignable
  have operand := operand.checked .strong asked
  split
  · exact .fail _ _
  · exact .pure (operand.node rfl trivial)

/-! ## What typing functions answer -/

/-- Why a read of a property has its type: nothing is known of the receiver; an entry of a map; the length of an array;
a member; or, if typing is not strong, a member that is not there. -/
inductive ReadAs (ctx : Context) (config : Config) (receiver : Ty) (name : String) : Ty → Prop
  | unknown (h : receiver.cls = .builtin .object ∨ receiver.cls = .builtin .null) : ReadAs ctx config receiver name .object
  | entry (h : receiver.cls = .builtin .map) : ReadAs ctx config receiver name receiver.valueType
  | length (h : receiver.cls = .builtin .array) (hn : name = "length") : ReadAs ctx config receiver name .integer
  | member {type : Ty} (h : ctx.readType? receiver name = some type) : ReadAs ctx config receiver name type
  | missing (h : config.strong = false) : ReadAs ctx config receiver name .object

theorem yields_dynamicMember {receiver : Ty} {name : String} {span : Span} {a : AnalysisState} :
    Yields (ctx.dynamicMember receiver name span) a fun type _ => type = .object := by
  unfold dynamicMember
  refine .bind fun rejected b _ => ?_
  split
  · exact .fail _ _
  · exact .pure rfl

theorem yields_propertyType {receiver : Ty} {name : String} {span : Span} {a : AnalysisState} (under : a.env.Under config) :
    Yields (ctx.propertyType receiver name span) a fun type _ => ctx.ReadAs config receiver name type := by
  unfold propertyType
  split
  · rename_i h
    intro type b typed
    rw [yields_dynamicMember typed]
    exact .unknown (.inl h)
  · rename_i h
    intro type b typed
    rw [yields_dynamicMember typed]
    exact .unknown (.inr h)
  · rename_i h
    exact .pure (.entry h)
  · split
    · rename_i h
      exact .pure (.length h.1 h.2)
    · split
      · rename_i h
        exact .pure (.member h)
      · -- without a member the strictness decides between an error and the unknown type
        refine .bind fun strong b asked => ?_
        rw [strong_apply under] at asked
        cases asked
        split
        · exact .fail _ _
        · rename_i h
          exact .pure (.missing (by simpa using h))

end Context

end HostExpr
