import HostExpr.Proofs.Typing.Rule

/-!
# Turns of an analysis

Of the names of an environment a step of an analysis changes at most one: it declares it as a variable, or it asks for
it as an input, the latter only where names may be left unresolved. `Environment.Turns` says so, and
`WellNamed.of_turns` and `Turns.precedes` say what such a step keeps.
-/

namespace HostExpr

open Typed

/-! ## Turns -/

namespace Environment

variable {env env' env'' : Environment}

/-- The settings, the variables and the inputs are the same. -/
structure SameNames (env env' : Environment) : Prop where
  settings : env'.Under env.toConfig
  vars : env'.vars = env.vars
  inputs : env'.inputs = env.inputs

namespace SameNames

theorem refl (env : Environment) : env.SameNames env := ⟨⟨rfl, rfl, rfl⟩, rfl, rfl⟩

theorem trans (h : env.SameNames env') (h' : env'.SameNames env'') : env.SameNames env'' where
  settings := ⟨h'.settings.strong.trans h.settings.strong, h'.settings.strict.trans h.settings.strict,
    h'.settings.context.trans h.settings.context⟩
  vars := h'.vars.trans h.vars
  inputs := h'.inputs.trans h.inputs

theorem declare (h : env.SameNames env') (name : String) (type : Ty) :
    (env.declare name type).SameNames (env'.declare name type) where
  settings := ⟨h.settings.strong, h.settings.strict, h.settings.context⟩
  vars := congrArg (·.put name type) h.vars
  inputs := congrArg (·.erase name) h.inputs

theorem addInput (h : env.SameNames env') (name : String) (type : Ty) :
    (env.addInput name type).SameNames (env'.addInput name type) := by
  unfold Environment.addInput
  rw [h.vars]
  split
  · exact h
  · exact ⟨⟨h.settings.strong, h.settings.strict, h.settings.context⟩, rfl, congrArg (·.put name type) h.inputs⟩

theorem rememberParams (env : Environment) (params : List Ty) : env.SameNames (env.rememberParams params) := by
  unfold Environment.rememberParams
  split
  · exact .refl env
  · exact ⟨⟨rfl, rfl, rfl⟩, rfl, rfl⟩

theorem addImport (env : Environment) (name : String) (what : Import) : env.SameNames (env.addImport name what) :=
  ⟨⟨rfl, rfl, rfl⟩, rfl, rfl⟩

theorem noteBlockName (env : Environment) (name : String) : env.SameNames (env.noteBlockName name) := by
  unfold Environment.noteBlockName
  split
  · exact .refl env
  · exact ⟨⟨rfl, rfl, rfl⟩, rfl, rfl⟩

/-- Changes one after the other, one for each item of a list. -/
theorem foldl {γ : Type} {f : Environment → γ → Environment} (hf : ∀ env c, SameNames env (f env c)) (cs : List γ)
    (env : Environment) : env.SameNames (cs.foldl f env) := by
  induction cs generalizing env with
  | nil => exact .refl env
  | cons c cs ih => exact (hf env c).trans (ih (f env c))

end SameNames

/-- What a step of an analysis does to the names. -/
inductive Turns (env env' : Environment) : Prop
  /-- It leaves them alone. -/
  | same (h : env.SameNames env')
  /-- It declares a variable. -/
  | declared (name : String) (type : Ty) (h : (env.declare name type).SameNames env')
  /-- It asks for an input, where names may be left unresolved. -/
  | asked (name : String) (type : Ty) (strong : env.strong = false) (strict : env.strict = false)
    (h : (env.addInput name type).SameNames env')

namespace Turns

theorem refl (env : Environment) : env.Turns env := .same (.refl env)

/-- A turn, and then a step that leaves the names alone. -/
theorem trans_same (h : env.Turns env') (h' : env'.SameNames env'') : env.Turns env'' := by
  cases h with
  | same h => exact .same (h.trans h')
  | declared name type h => exact .declared name type (h.trans h')
  | asked name type strong strict h => exact .asked name type strong strict (h.trans h')

end Turns

/-- A step that leaves the names alone, and then a turn. -/
theorem SameNames.trans_turns (h : env.SameNames env') (h' : env'.Turns env'') : env.Turns env'' := by
  cases h' with
  | same h' => exact .same (h.trans h')
  | declared name type h' => exact .declared name type ((h.declare name type).trans h')
  | asked name type strong strict h' =>
    exact .asked name type (h.settings.strong ▸ strong) (h.settings.strict ▸ strict) ((h.addInput name type).trans h')

/-! ## What turns keep -/

/-- A later environment has all the variables of an earlier one, and what was an input is an input or a variable. -/
structure Precedes (env env' : Environment) : Prop where
  vars : ∀ name, env.vars.has name → env'.vars.has name
  inputs : ∀ name, env.inputs.has name → env'.inputs.has name ∨ env'.vars.has name

theorem Precedes.trans (h : env.Precedes env') (h' : env'.Precedes env'') : env.Precedes env'' where
  vars name known := h'.vars name (h.vars name known)
  inputs name asked := by
    rcases h.inputs name asked with asked' | known
    · exact h'.inputs name asked'
    · exact .inr (h'.vars name known)

theorem SameNames.precedes (h : env.SameNames env') : env.Precedes env' where
  vars _ known := h.vars ▸ known
  inputs _ asked := .inl (h.inputs ▸ asked)

theorem precedes_declare (env : Environment) (name : String) (type : Ty) : env.Precedes (env.declare name type) where
  vars other known := by simp [Environment.declare, known]
  inputs other asked := by
    by_cases same : other = name
    · exact .inr (by simp [Environment.declare, same])
    · refine .inl ?_
      show ((env.inputs.erase name).get? other).isSome
      rw [Table.get?_erase, if_neg same]
      exact asked

theorem precedes_addInput (env : Environment) (name : String) (type : Ty) : env.Precedes (env.addInput name type) := by
  unfold Environment.addInput
  split
  · exact (SameNames.refl env).precedes
  · exact ⟨fun _ known => known, fun other asked => .inl (by simp [asked])⟩

/-- No variable disappears in a turn, and an input only by becoming a variable. -/
theorem Turns.precedes (h : env.Turns env') : env.Precedes env' := by
  cases h with
  | same h => exact h.precedes
  | declared name type h => exact (env.precedes_declare name type).trans h.precedes
  | asked name type _ _ h => exact (env.precedes_addInput name type).trans h.precedes

/-- No variable is an input, and where names have to be resolved all inputs are those of the configuration. -/
structure WellNamed (config : Config) (env : Environment) : Prop where
  settings : env.Under config
  apart : env.Apart
  supplied : config.strong ∨ config.strict → ∀ name, env.inputs.has name → config.inputs.has name

theorem wellNamed_ofConfig (config : Config) : (ofConfig config).WellNamed config where
  settings := ⟨rfl, rfl, rfl⟩
  apart _ := .inl rfl
  supplied _ _ asked := asked

theorem Apart.addInput (h : env.Apart) (name : String) (type : Ty) : (env.addInput name type).Apart := by
  unfold Environment.addInput
  split
  · exact h
  · rename_i new
    intro other
    show env.vars.get? other = none ∨ (env.inputs.put name type).get? other = none
    rw [Table.get?_put]
    split
    · rename_i same
      rw [same]
      exact .inl (by simpa [Table.has] using new)
    · exact h other

namespace WellNamed

variable {config : Config}

theorem of_same (wf : env.WellNamed config) (h : env.SameNames env') : env'.WellNamed config where
  settings := ⟨h.settings.strong.trans wf.settings.strong, h.settings.strict.trans wf.settings.strict,
    h.settings.context.trans wf.settings.context⟩
  apart name := by
    rw [h.vars, h.inputs]
    exact wf.apart name
  supplied resolved name asked := wf.supplied resolved name (h.inputs ▸ asked)

theorem declare (wf : env.WellNamed config) (name : String) (type : Ty) :
    (env.declare name type).WellNamed config where
  settings := ⟨wf.settings.strong, wf.settings.strict, wf.settings.context⟩
  apart := wf.apart.declare name type
  supplied resolved other asked := by
    have asked : ((env.inputs.erase name).get? other).isSome := asked
    rw [Table.get?_erase] at asked
    split at asked
    · cases asked
    · exact wf.supplied resolved other asked

theorem of_turns (wf : env.WellNamed config) (h : env.Turns env') : env'.WellNamed config := by
  cases h with
  | same h => exact wf.of_same h
  | declared name type h => exact (wf.declare name type).of_same h
  | asked name type strong strict h =>
    have asked : (env.addInput name type).WellNamed config := by
      refine ⟨wf.settings.addInput name type, wf.apart.addInput name type, fun resolved => ?_⟩
      -- nothing is asked for where names have to be resolved
      rw [← wf.settings.strong, ← wf.settings.strict, strong, strict] at resolved
      simp at resolved
    exact asked.of_same h

end WellNamed

end Environment

/-! ## Steps that are turns -/

namespace Analysis

variable {α β : Type}

/-- The step leaves the names of the environment alone, whatever comes of it. -/
def KeepsNames (step : Analysis α) : Prop := ∀ a : AnalysisState, a.env.SameNames (step a).2.env

/-- The step changes at most one name of the environment, whatever comes of it. -/
def Turns (step : Analysis α) : Prop := ∀ a : AnalysisState, a.env.Turns (step a).2.env

theorem Asks.keepsNames {x : Analysis α} (h : Asks x) : KeepsNames x := fun a => by
  rw [h.checks a]
  exact .refl _

namespace KeepsNames

theorem pure (r : α) : KeepsNames (Pure.pure r) := fun _ => .refl _

theorem fail (cause : CompileCause) (span : Span) : KeepsNames (Analysis.fail cause span : Analysis α) :=
  fun _ => .refl _

theorem env : KeepsNames Analysis.env := fun _ => .refl _

theorem get : KeepsNames (MonadState.get : Analysis AnalysisState) := fun _ => .refl _

theorem newSite : KeepsNames Analysis.newSite := fun _ => .refl _

theorem modifyEnv {f : Environment → Environment} (hf : ∀ env, Environment.SameNames env (f env)) :
    KeepsNames (Analysis.modifyEnv f) := fun a => hf a.env

theorem remember (t : Ty) : KeepsNames (Analysis.remember t) := .modifyEnv fun _ => .rememberParams _ _

theorem declareInBlock (name : String) (type : Ty) : KeepsNames (Analysis.declareInBlock name type) := fun a => by
  rw [declareInBlock_apply]
  unfold AnalysisState.declaring
  split <;> exact .refl _

theorem bind {x : Analysis α} {f : α → Analysis β} (hx : KeepsNames x) (hf : ∀ r, KeepsNames (f r)) :
    KeepsNames (x >>= f) := fun a => by
  rw [bind_eq_bindCont]
  refine (hx a).trans ?_
  cases (x a).1 with
  | ok r => exact hf r _
  | error e => exact .refl _

/-- What leaves the names alone, and then a turn. -/
theorem bind_turns {x : Analysis α} {f : α → Analysis β} (hx : KeepsNames x) (hf : ∀ r, Turns (f r)) :
    Turns (x >>= f) := fun a => by
  rw [bind_eq_bindCont]
  refine (hx a).trans_turns ?_
  cases (x a).1 with
  | ok r => exact hf r _
  | error e => exact .refl _

theorem turns {x : Analysis α} (h : KeepsNames x) : Turns x := fun a => .same (h a)

end KeepsNames

namespace Turns

/-- A turn, and then what leaves the names alone. -/
theorem bind_keeps {x : Analysis α} {f : α → Analysis β} (hx : Turns x) (hf : ∀ r, KeepsNames (f r)) :
    Turns (x >>= f) := fun a => by
  rw [bind_eq_bindCont]
  refine (hx a).trans_same ?_
  cases (x a).1 with
  | ok r => exact hf r _
  | error e => exact .refl _

theorem declare (name : String) (type : Ty) : Turns (Analysis.modifyEnv (·.declare name type)) :=
  fun _ => .declared name type (.refl _)

end Turns

end Analysis

/-! ## The steps of an analysis -/

namespace Context

open Analysis

variable (ctx : Context)

theorem keepsNames_inputNode (name : String) (type : Ty) (span : Span) : KeepsNames (inputNode name type span) :=
  .bind .newSite fun _ => .pure _

theorem keepsNames_property (receiver : Expr) (name : String) (span : Span) :
    KeepsNames (ctx.property receiver name span) := by
  unfold property
  dsimp only
  split
  · exact .bind (.remember _) fun _ => .pure _
  · refine .bind (ctx.asks_propertyType _ name span).keepsNames fun type => ?_
    exact .bind (.remember _) fun _ => .bind .newSite fun _ => .pure _

theorem keepsNames_methodCall (receiver : Expr) (name : String) (args : List Expr) (span : Span) :
    KeepsNames (ctx.methodCall receiver name args span) := by
  unfold methodCall
  refine .bind (ctx.asks_callType receiver name _ span).keepsNames fun type => ?_
  exact .bind (.remember _) fun _ => .bind .newSite fun _ => .pure _

theorem keepsNames_callNamed (name : String) (args : List Expr) (span : Span) :
    KeepsNames (ctx.callNamed name args span) := by
  unfold callNamed
  split
  · exact .pure _
  · unfold callFunction
    refine .bind .env fun env => ?_
    split
    · dsimp only
      split
      · exact .fail _ _
      · exact .pure _
    · exact ctx.keepsNames_methodCall _ name args span

theorem keepsNames_index (receiver position : Expr) (span : Span) :
    KeepsNames (ctx.index receiver position span) := by
  unfold index
  refine .bind (ctx.asks_indexType _ span).keepsNames fun type => ?_
  exact .bind (.remember _) fun _ => .bind .newSite fun _ => .pure _

theorem keepsNames_construct (type : Ty) (args : List Expr) (span : Span) :
    KeepsNames (ctx.construct type args span) := by
  unfold construct
  refine .bind (ctx.asks_chosenConstructor type _ span).keepsNames fun chosen => ?_
  exact .bind (.remember _) fun _ => .pure _

theorem keepsNames_inlineList (items : List Expr) (span : Span) : KeepsNames (ctx.inlineList items span) :=
  .bind (.remember _) fun _ => .pure _

theorem keepsNames_inlineMap (entries : List (Expr × Expr)) (span : Span) :
    KeepsNames (ctx.inlineMap entries span) :=
  .bind (.remember _) fun _ => .pure _

theorem keepsNames_importPackage (package : String) (span : Span) : KeepsNames (ctx.importPackage package span) := by
  unfold importPackage
  split
  · exact .fail _ _
  · exact .modifyEnv fun env => .foldl (fun env c => .addImport env _ _) _ env

theorem keepsNames_importClass (path : String) (span : Span) : KeepsNames (ctx.importClass path span) := by
  unfold importClass
  split
  · exact .modifyEnv fun env => .addImport env _ _
  · exact .fail _ _

/-- A name that stands for nothing is declared or asked for, unless names have to be resolved. -/
theorem turns_unknownName (name : String) (span : Span) : Turns (unknownName name span) := by
  intro a
  have asks : Tells Analysis.env AnalysisState.env := fun _ => rfl
  unfold unknownName
  rw [asks.bind_apply]
  split
  · exact .refl _
  · rename_i loose
    split
    · exact Turns.bind_keeps (.declare name .object) (fun _ => .pure _) a
    · have unresolved : a.env.strong = false ∧ a.env.strict = false := by simpa using loose
      have asked := keepsNames_inputNode name .object span { a with env := a.env.addInput name .object }
      exact .asked name .object unresolved.1 unresolved.2 asked

theorem turns_freeName (name : String) (span : Span) : Turns (ctx.freeName name span) := by
  unfold freeName
  refine KeepsNames.env.bind_turns fun env => ?_
  split
  · exact (KeepsNames.pure _).turns
  · split
    · exact (KeepsNames.pure _).turns
    · split
      · exact (KeepsNames.bind (.remember _) fun _ => .bind .newSite fun _ => .pure _).turns
      · split
        · exact (KeepsNames.pure _).turns
        · exact turns_unknownName name span

theorem turns_ident (name : String) (span : Span) : Turns (ctx.ident name span) := by
  unfold ident
  refine KeepsNames.get.bind_turns fun s => ?_
  split
  · exact (KeepsNames.pure _).turns
  · split
    · exact (KeepsNames.bind (.remember _) fun _ => .pure _).turns
    · split
      · exact (KeepsNames.bind (.remember _) fun _ => keepsNames_inputNode _ _ _).turns
      · exact ctx.turns_freeName name span

theorem turns_assignedName (name : String) (span : Span) (value : Ty) : Turns (ctx.assignedName name span value) := by
  unfold assignedName
  refine KeepsNames.get.bind_turns fun s => ?_
  split
  · exact (KeepsNames.pure _).turns
  · split
    · exact (KeepsNames.pure _).turns
    · split
      · exact (KeepsNames.bind (keepsNames_inputNode _ _ _) fun _ => .pure _).turns
      · split
        · refine (ctx.turns_ident name span).bind_keeps fun target => ?_
          exact .bind (ctx.asks_checkAssignable target _).keepsNames fun _ => .pure _
        · exact (Turns.declare _ _).bind_keeps fun _ => .pure _

theorem turns_declareName (name : String) (type : Ty) : Turns (declareName name type) := by
  unfold declareName
  refine KeepsNames.get.bind_turns fun s => ?_
  split
  · exact (Turns.declare _ _).bind_keeps fun _ => .pure _
  · exact (KeepsNames.bind (.declareInBlock _ _) fun _ => .pure _).turns

end Context

end HostExpr
