import HostExpr.Proofs.Lookup.Folding
import HostExpr.Proofs.Soundness.Members
import HostExpr.Proofs.Soundness.Names
import HostExpr.Proofs.Typing.Parts

/-!
# The types of expressions are kept

Where all names hold what suits them, and all that is read suits what is recorded, an expression evaluates to a value
that suits its type, and the names still hold what suits them: `sound_value`, by induction on the expression, with one
case for each typing rule.
-/

namespace HostExpr

open Typed Classes

/-- Where a program is run: in the world that it was analyzed for, which keeps its promises, on a root that suits the
type that is configured for it. -/
structure Setting.Serves (σ : Setting) (ctx : Context) (config : Config) : Prop where
  world : ctx.world = σ.world
  promised : σ.world.KeepsTypes
  root : σ.world.classes.suits σ.root (config.context?.getD .object)

/-- Where a part of a program is run: with scopes in which names mean what they mean in the frames. -/
structure Setting.Hosts (σ : Setting) (ctx : Context) (config : Config) (z : AnalysisState) (Θ Φ : Scopes Ty) : Prop
    extends σ.Serves ctx config where
  apart : z.env.Apart
  alike : Θ.Alike Φ

namespace Setting.Hosts

variable {σ : Setting} {ctx : Context} {config : Config} {z : AnalysisState} {Θ Φ : Scopes Ty}

theorem of_alike {Θ' Φ' : Scopes Ty} (here : σ.Hosts ctx config z Θ Φ) (alike : Θ'.Alike Φ') :
    σ.Hosts ctx config z Θ' Φ' := ⟨here.toServes, here.apart, alike⟩

theorem push (here : σ.Hosts ctx config z Θ Φ) : σ.Hosts ctx config z Θ.push Φ.push := here.of_alike here.alike.push

/-- A block more in which nothing is declared. -/
theorem pushLeft (here : σ.Hosts ctx config z Θ Φ) (inside : Φ.isEmpty = false) : σ.Hosts ctx config z Θ.push Φ :=
  here.of_alike (here.alike.pushLeft inside)

theorem declaring (here : σ.Hosts ctx config z Θ Φ) (name : String) (t : Ty) :
    σ.Hosts ctx config z (Θ.declaring name t) (Φ.declaring name t) := here.of_alike (here.alike.declaring name t)

theorem following (here : σ.Hosts ctx config z Θ Φ) (s : Stmt) :
    σ.Hosts ctx config z (Θ.following s) (Φ.following s) := here.of_alike (here.alike.following s)

end Setting.Hosts

/-- The place is one of the program, and if it is a name, that of the target. -/
structure Place.Found (p : Program) (target : Expr) (place : Place) : Prop where
  within : place.Of p
  named : ∀ e, place = .name e → e = target

namespace Setting

/-- Where names hold what suits them and reads give what is recorded, the expression evaluates to what suits its type,
and names still hold what suits them. -/
def Sound (σ : Setting) (o : Outset σ.world) (env : Environment) (Φ : Scopes Ty) (e : Expr) : Prop :=
  ∀ s : Running, s.Holds o env Φ → σ.reads e s →
    Gives (σ.value e) s fun v s' => σ.world.classes.suits v e.type ∧ s'.Holds o env Φ

/-- The same of expressions in a row; nothing is said of their values. -/
def SoundRow (σ : Setting) (o : Outset σ.world) (env : Environment) (Φ : Scopes Ty) (es : List Expr) : Prop :=
  ∀ s : Running, s.Holds o env Φ → σ.readsEach es s → Gives (σ.values es) s fun _ s' => s'.Holds o env Φ

/-- The same of what is evaluated to find the place of a target. -/
def SoundPlace (σ : Setting) (o : Outset σ.world) (env : Environment) (Φ : Scopes Ty) (target : Expr) : Prop :=
  ∀ s : Running, s.Holds o env Φ → σ.readsPlace target s →
    Gives (σ.place target) s fun p s' => p.Found o.program target ∧ s'.Holds o env Φ

variable {σ : Setting} {ctx : Context} {config : Config} {o : Outset σ.world} {z : AnalysisState} {env : Environment}
  {Θ Φ : Scopes Ty} {s s' : Running} {α : Type}

/-! ## Steps that leave names alone -/

/-- A step that asks the world or values. -/
theorem holds_asked {x : Exec α} (h : s.Holds o env Φ)
    (keeps : ∀ {γ : Type} (part : Running → γ) [Running.Beside part], Exec.Keeps part x) {a : α}
    (hx : x s = (.ok a, s')) : s'.Holds o env Φ := by
  have frames := keeps Running.frames s
  have bindings := keeps Running.bindings s
  have sites := keeps Running.sites s
  rw [hx] at frames bindings sites
  refine h.of_same frames bindings ?_
  rw [sites]
  exact h.sites

/-- A step that uses a call site, whatever comes of it. -/
theorem holds_accessed {x : Exec α} {Q : α → Prop} (h : s.Holds o env Φ) (proper : Exec.Proper σ.world o.program x Q)
    (keeps : ∀ {γ : Type} (part : Running → γ) [Running.Aside part], Exec.Keeps part x) : (x s).2.Holds o env Φ := by
  obtain ⟨_, advances, -, -⟩ := proper s h.sites
  exact h.of_same (keeps Running.frames s) (keeps Running.bindings s) advances.sites

/-- The same where it gives something. -/
theorem holds_reached {x : Exec α} {Q : α → Prop} (h : s.Holds o env Φ) (proper : Exec.Proper σ.world o.program x Q)
    (keeps : ∀ {γ : Type} (part : Running → γ) [Running.Aside part], Exec.Keeps part x) {a : α}
    (hx : x s = (.ok a, s')) : s'.Holds o env Φ := by
  have after := holds_accessed h proper keeps
  rw [hx] at after
  exact after

/-- An operand, and the checks behind it. -/
theorem Sound.operand {e : Expr} (h : σ.Sound o env Φ e) (holds : s.Holds o env Φ)
    {rest : Value → Running → Bool} (reads : σ.along (σ.reads e) (σ.value e) rest s) {v : Value}
    (hv : σ.deeper (σ.value e) s = (.ok v, s')) :
    σ.world.classes.suits v e.type ∧ s'.Holds o env Φ ∧ rest v s' := by
  obtain ⟨first, behind⟩ := Bool.and_eq_true_iff.1 reads
  have deeper : Gives (σ.deeper (σ.value e)) s fun v s' =>
      σ.world.classes.suits v e.type ∧ s'.Holds o env Φ := by
    have inside : { s with depth := s.depth + 1 }.Holds o env Φ := holds.of_same rfl rfl holds.sites
    refine .nested ((h _ inside first).weaken fun v s' given => ?_)
    exact ⟨given.1, given.2.of_same rfl rfl given.2.sites⟩
  obtain ⟨suits, after⟩ := deeper v s' hv
  exact ⟨suits, after, Exec.check_of_after behind hv⟩

/-! ## Places -/

/-- A value that suits the type of a target is stored. -/
theorem holds_writePlace (here : σ.Hosts ctx config z Θ Φ) {target : Expr} (named : target.Named Θ z.env)
    (holds : s.Holds o z.env Φ) {v : Value} (hv : σ.world.classes.suits v target.type) {place : Place}
    (found : place.Found o.program target) :
    Gives (σ.writePlace v place) s fun _ s' => s'.Holds o z.env Φ := by
  cases place with
  | property receiver name site =>
    exact fun _ _ hx => holds_reached holds (proper_setProperty found.within receiver v) (fun _ _ => .atSite _ _ _) hx
  | index receiver position site =>
    exact fun _ _ hx =>
      holds_reached holds (proper_setIndex found.within receiver position v) (fun _ _ => .atSite _ _ _) hx
  | name e =>
    have node : e ∈ o.nodes := found.within
    obtain rfl := found.named e rfl
    cases e with
    | declared i name =>
      intro u s' hx
      have known : (Θ.lookup name).or (z.env.vars.get? name) = some i.type := named
      rw [here.alike.lookup_eq] at known
      have after := holds.writeName here.apart known hv
      rw [show (Exec.writeName name v s).2 = s' from congrArg Prod.snd hx] at after
      exact after
    -- an input is bound where the root does not take the value
    | input i name site =>
      have known : z.env.inputs.get? name = some i.type := named
      -- the name is an input, so it is no variable, and the binding has to suit the type of the input only
      have bound (s : Running) (holds : s.Holds o z.env Φ) :
          Gives (Exec.bind name v) s fun _ s' => s'.Holds o z.env Φ := by
        intro u s' hx
        cases hx
        exact holds.bind hv (.inr ⟨(here.apart name).resolve_right (by rw [known]; exact Option.some_ne_none _), known⟩)
      intro u s' hx
      change σ.writeInput name site v s = (.ok u, s') at hx
      unfold writeInput at hx
      split at hx
      · exact bound s holds u s' hx
      · have kept : (σ.setProperty σ.root name site v s).2.Holds o z.env Φ :=
          holds_accessed holds (proper_setProperty (o.memberAt_eq node rfl) σ.root v) (fun _ _ => .atSite _ _ _)
        split at hx
        · rename_i e s'' failed
          rw [failed] at kept
          split at hx
          · exact bound s'' kept u s' hx
          · cases hx
        · rw [hx] at kept
          exact kept
    | _ => exact fun _ _ hx => by cases hx

/-! ## Names -/

theorem sound_declared (here : σ.Hosts ctx config z Θ Φ) {i : Info} {name : String}
    (named : (Expr.declared i name).Named Θ z.env) (node : .declared i name ∈ o.nodes) :
    σ.Sound o z.env Φ (.declared i name) := by
  intro s holds _ v s' hv
  have known : (Θ.lookup name).or (z.env.vars.get? name) = some i.type := named
  rw [here.alike.lookup_eq] at known
  have suits := holds.readName node known
  cases hv
  exact ⟨suits, holds⟩

theorem sound_input {i : Info} {name : String} {site : Nat} (named : (Expr.input i name site).Named Θ z.env)
    (node : .input i name site ∈ o.nodes) : σ.Sound o z.env Φ (.input i name site) := by
  intro s holds reads v s' hv
  have proper := proper_readInput (σ := σ) (o.memberAt_eq node rfl) ⟨i, site, node⟩
  refine ⟨?_, holds_reached holds proper (fun _ _ => σ.keeps_readInput name site) hv⟩
  rcases Bool.or_eq_true_iff.1 reads with bound | given
  · obtain ⟨r, hr⟩ := Option.isSome_iff_exists.1 bound
    change σ.readInput name site s = (.ok v, s') at hv
    unfold readInput at hv
    rw [hr] at hv
    cases hv
    exact holds.inputs name i.type named v hr
  · exact Exec.check_of_after given hv

/-! ## Assignments -/

/-- The old value of a target. -/
theorem sound_readPlace (promised : σ.world.KeepsTypes) {target : Expr} (h : σ.Sound o env Φ target)
    (holds : s.Holds o env Φ) {place : Place} (found : place.Found o.program target)
    (reads : σ.givesOld target.type (σ.reads target) place s) :
    Gives (σ.readPlace (σ.deeper (σ.value target)) place) s fun v s' =>
      σ.world.classes.suits v target.type ∧ s'.Holds o env Φ := by
  intro v s' hv
  cases place with
  | name e =>
    -- a name is evaluated again, and for that the check of the evaluation has to hold here
    have whole : σ.along (σ.reads target) (σ.value target) (fun _ => nothing) s := by
      refine Bool.and_eq_true_iff.2 ⟨reads, ?_⟩
      unfold Exec.after
      split <;> rfl
    obtain ⟨suits, after, -⟩ := h.operand holds whole hv
    exact ⟨suits, after⟩
  | property receiver name site =>
    refine ⟨suits_getProperty promised holds.sites found.within reads v s' hv, ?_⟩
    exact holds_reached holds (proper_getProperty found.within receiver) (fun _ _ => .atSite _ _ _) hv
  | index receiver position site =>
    refine ⟨Exec.check_of_after reads hv, ?_⟩
    exact holds_reached holds (proper_getIndex found.within receiver position) (fun _ _ => .atSite _ _ _) hv

/-- Counting suits the type of what is counted. -/
theorem suits_counted (h : σ.world.KeepsTypes) {op : StepOp} {t : Ty} {old : Value}
    (suits : σ.world.classes.suits old t) (s : Running) :
    Gives (σ.counted op t old) s fun v _ => σ.world.classes.suits v t := by
  unfold counted
  refine .bind fun new s₁ hnew => ?_
  cases numeric : t.isNumeric with
  | true => exact suits_convert h s₁ new t
  | false =>
    obtain ⟨store, made⟩ : ∃ store, op.arith.apply σ.world.classes old (.int 1) s.store = (.ok new, store) := by
      have acted : Gives (σ.arith op.arith old (.int 1)) s fun v _ =>
          ∃ store, op.arith.apply σ.world.classes old (.int 1) s.store = (.ok v, store) :=
        .act fun v store done => ⟨store, done⟩
      exact acted new s₁ hnew
    exact .pure (suits_step suits numeric made)

/-- What is stored by a plain assignment suits the target. -/
theorem suits_taken {target : Expr} {t : Ty} {v r : Value} {stored : Option Ty} (takes : ctx.Takes config target t stored)
    (hv : σ.world.classes.suits v t) (hr : σ.world.classes.Stored v stored r) :
    σ.world.classes.suits r target.type := by
  cases takes with
  | written checked => exact hr.suits_target
  | bare h => exact hr.suits_target
  | declared name span t =>
    show σ.world.classes.suits r (if t.isNull then .object else t)
    split
    · exact suits_of_isDynamic rfl r
    · exact hr.suits_getD hv

/-- What arithmetic makes of values suits the type that analysis records. -/
theorem suits_computed {op : ArithOp} {left right t : Ty} {span : Span}
    (rule : Analysis.Answers config (ctx.arithType op left right span) t) {l r v : Value}
    (hl : σ.world.classes.suits l left) (hr : σ.world.classes.suits r right) (hv : σ.arith op l r s = (.ok v, s')) :
    σ.world.classes.suits v t := by
  obtain ⟨a, b, -, typed⟩ := rule
  have typed := Context.yields_arithType op left right span typed
  have acted : Gives (σ.arith op l r) s fun v _ => σ.world.classes.suits v t :=
    .act fun v store done => suits_arith typed hl hr done
  exact acted v s' hv

/-- The same of an operator in front of its operand. -/
theorem suits_unary {i : Info} {op : UnaryOp} {x : Expr} (rule : ctx.Rule config (.unary i op x)) {v r : Value}
    (hv : σ.world.classes.suits v x.type) (hr : σ.unary op v s = (.ok r, s')) : σ.world.classes.suits r i.type := by
  obtain ⟨a, b, -, typed⟩ := rule
  cases op with
  | not =>
    have type : i.type = .boolean := by
      have answer : (Except.ok .boolean : Except CompileError Ty) = .ok i.type := congrArg Prod.fst typed
      exact (Except.ok.inj answer).symm
    have made : Gives (σ.unary .not v) s fun r _ => r.classRef = .builtin .boolean := .bind fun _ _ _ => .pure rfl
    refine suits_of_eq ?_
    rw [type]
    exact made r s' hr
  | neg =>
    have made : Gives (σ.unary .neg v) s fun r _ => r.classRef = v.classRef := .ofExcept fun r => classRef_of_negate
    -- a negated number stays of its class; what is not known to be a number is of unknown type
    rcases Context.yields_negType x.type i.span typed with type | type
    · rw [type]
      unfold suits at hv ⊢
      rw [made r s' hr]
      exact hv
    · rw [type]
      exact suits_of_isDynamic rfl r

/-- The right operand of a logical operator is run only if the left one leaves it open. -/
theorem holds_logic {op : LogicOp} {left right : Exec Bool} {P : Running → Prop}
    (h : Gives left s fun l s' => P s' ∧ ((decide (op = .and) != l) = true ∨ Gives right s' fun _ s'' => P s'')) :
    Gives (logic op left right) s fun _ s' => P s' := by
  unfold logic
  refine .bind (h.weaken fun l s₁ given => ?_)
  obtain ⟨here, settled | next⟩ := given
  · cases op with
    | and =>
      cases l with
      | true => cases settled
      | false => exact .pure here
    | or =>
      cases l with
      | true => exact .pure here
      | false => cases settled
  · cases op with
    | and =>
      cases l with
      | true => exact .map next
      | false => exact .pure here
    | or =>
      cases l with
      | true => exact .pure here
      | false => exact .map next

/-- A conversion to a class that is named gives a value of it. -/
theorem suits_convert_className (h : σ.world.KeepsTypes) {i : Info} {x target : Expr} (literal : target.isClassName)
    (rule : ctx.Rule config (.convert i x target)) {s₁ s₂ : Running} {v c r : Value}
    (hc : σ.deeper (σ.value target) s₁ = (.ok c, s₂)) (hr : σ.convertToClass v c s = (.ok r, s')) :
    σ.world.classes.suits r i.type := by
  cases target with
  | classRef j d =>
    have named : Gives (σ.deeper (σ.value (.classRef j d))) s₁ fun c _ => c = .cls d := .nested (.pure rfl)
    obtain rfl := named c s₂ hc
    have type : i.type = .raw d := rule
    rw [type]
    exact suits_convertToClass h s v d r s' hr
  | _ => cases literal

/-- Each expression in a row has a value. -/
theorem length_values (es : List Expr) (s : Running) : Gives (σ.values es) s fun vs _ => vs.length = es.length := by
  induction es generalizing s with
  | nil => exact .pure rfl
  | cons e es ih => exact .bind fun v s₁ _ => .bind fun vs s₂ hvs => .pure (congrArg (· + 1) (ih s₁ vs s₂ hvs))

/-! ## One lemma for each kind of expression -/

theorem sound_constant {i : Info} {v : Syntax.Literal} (rule : ctx.Rule config (.constant i v)) :
    σ.Sound o env Φ (.constant i v) := by
  intro s holds _
  have type : i.type = v.type := rule
  refine .pure ⟨suits_of_eq ?_, holds⟩
  show v.toValue.classRef = i.type.cls
  rw [type]
  cases v <;> rfl

theorem sound_this (serves : σ.Serves ctx config) {i : Info} (rule : ctx.Rule config (.this i)) :
    σ.Sound o env Φ (.this i) := by
  intro s holds _
  have type : i.type = config.context?.getD .object := rule
  refine .pure ⟨?_, holds⟩
  show σ.world.classes.suits σ.root i.type
  rw [type]
  exact serves.root

theorem sound_classRef {i : Info} {c : ClassRef} (rule : ctx.Rule config (.classRef i c)) :
    σ.Sound o env Φ (.classRef i c) := by
  intro s holds _
  have type : i.type = .classOf c := rule
  refine .pure ⟨suits_of_eq ?_, holds⟩
  show _ = i.type.cls
  rw [type]
  rfl

theorem sound_staticField (serves : σ.Serves ctx config) {i : Info} {c : ClassRef} {name : String}
    (rule : ctx.Rule config (.staticField i c name)) : σ.Sound o env Φ (.staticField i c name) := by
  intro s holds _ v s' hv
  obtain ⟨x, a, b, -, made⟩ := rule
  obtain ⟨-, -, f, hf, same⟩ := Context.staticField_of_property made
  have hf : σ.world.classes.staticField? c name = some f := serves.world ▸ hf
  refine ⟨?_, holds_asked holds (fun _ _ => σ.keeps_staticField c name) hv⟩
  show σ.world.classes.suits v i.type
  rw [same]
  exact suits_staticField serves.promised s hf v s' hv

theorem sound_property (promised : σ.world.KeepsTypes) {i : Info} {receiver : Expr} {name : String} {site : Nat}
    (node : .property i receiver name site ∈ o.nodes) (sound : σ.Sound o env Φ receiver) :
    σ.Sound o env Φ (.property i receiver name site) := by
  intro s holds reads
  refine .bind fun r s₁ hr v s' hv => ?_
  obtain ⟨-, holds, reads⟩ := sound.operand holds reads hr
  have member : o.program.memberAt site = .property name := o.memberAt_eq node rfl
  refine ⟨suits_getProperty promised holds.sites member reads v s' hv, ?_⟩
  exact holds_reached holds (proper_getProperty member r) (fun _ _ => .atSite _ _ _) hv

theorem sound_methodCall (promised : σ.world.KeepsTypes) {i : Info} {receiver : Expr} {name : String}
    {args : List Expr} {site : Nat} (node : .methodCall i receiver name args site ∈ o.nodes)
    (sound : σ.Sound o env Φ receiver) (sound_args : σ.SoundRow o env Φ args) :
    σ.Sound o env Φ (.methodCall i receiver name args site) := by
  intro s holds reads
  refine .bind fun r s₁ hr => .bind fun vs s₂ hvs v s' hv => ?_
  obtain ⟨-, holds, reads⟩ := sound.operand holds reads hr
  obtain ⟨first, behind⟩ := Bool.and_eq_true_iff.1 reads
  have holds := sound_args s₁ holds first vs s₂ hvs
  have member : o.program.memberAt site = .method name args.length := o.memberAt_eq node rfl
  rw [← length_values args s₁ vs s₂ hvs] at member
  have reads := Exec.check_of_after behind hvs
  refine ⟨suits_callMethod promised holds.sites member reads v s' hv, ?_⟩
  exact holds_reached holds (proper_callMethod member r) (fun _ _ => .atSite _ _ _) hv

theorem sound_functionCall (serves : σ.Serves ctx config) {i : Info} {function : Nat} {args : List Expr}
    (rule : ctx.Rule config (.functionCall i function args)) (sound_args : σ.SoundRow o env Φ args) :
    σ.Sound o env Φ (.functionCall i function args) := by
  obtain ⟨f, hf, type, -⟩ := rule
  rw [serves.world] at hf
  intro s holds reads
  refine .bind fun vs s₁ hvs v s' hv => ?_
  have holds := sound_args s holds reads vs s₁ hvs
  refine ⟨?_, holds_asked holds (fun _ _ => σ.keeps_callFunction function vs) hv⟩
  show σ.world.classes.suits v i.type
  rw [type]
  exact suits_callFunction serves.promised s₁ hf vs v s' hv

theorem sound_convert (promised : σ.world.KeepsTypes) {i : Info} {x target : Expr}
    (rule : ctx.Rule config (.convert i x target)) (sound : σ.Sound o env Φ x) (sound_target : σ.Sound o env Φ target) :
    σ.Sound o env Φ (.convert i x target) := by
  intro s holds reads
  refine .bind fun v s₁ hv => .bind fun c s₂ hc r s' hr => ?_
  obtain ⟨-, holds, reads⟩ := sound.operand holds reads hv
  obtain ⟨-, holds, reads⟩ := sound_target.operand holds reads hc
  refine ⟨?_, holds_asked holds (fun _ _ => σ.keeps_convertToClass v c) hr⟩
  rcases Bool.or_eq_true_iff.1 reads with literal | given
  · exact suits_convert_className promised literal rule hc hr
  · exact Exec.check_of_after given hr

theorem sound_index {i : Info} {receiver position : Expr} {site : Nat}
    (node : .index i receiver position site ∈ o.nodes) (sound : σ.Sound o env Φ receiver)
    (sound_position : σ.Sound o env Φ position) : σ.Sound o env Φ (.index i receiver position site) := by
  intro s holds reads
  refine .bind fun r s₁ hr => .bind fun p s₂ hp v s' hv => ?_
  obtain ⟨-, holds, reads⟩ := sound.operand holds reads hr
  obtain ⟨-, holds, reads⟩ := sound_position.operand holds reads hp
  refine ⟨Exec.check_of_after reads hv, ?_⟩
  exact holds_reached holds (proper_getIndex (o.memberAt_eq node rfl) r p) (fun _ _ => .atSite _ _ _) hv

/-- A plain assignment does not read the target, so nothing is asked of its old value. -/
theorem sound_plainAssign (here : σ.Hosts ctx config z Θ Φ) {i : Info} {target x : Expr} {stored : Option Ty}
    (rule : ctx.Rule config (.assign i target .plain x stored)) (named : target.Named Θ z.env)
    (sound_place : σ.SoundPlace o z.env Φ target) (sound : σ.Sound o z.env Φ x) :
    σ.Sound o z.env Φ (.assign i target .plain x stored) := by
  obtain ⟨type, takes⟩ := rule
  intro s holds reads
  obtain ⟨first, behind⟩ := Bool.and_eq_true_iff.1 reads
  refine .bind fun p s₁ hp => .bind fun v s₂ hv => .bind fun r s₃ hr => .bind fun _ s₄ written => .pure ?_
  obtain ⟨found, holds⟩ := sound_place s holds first p s₁ hp
  have reads := Exec.check_of_after behind hp
  obtain ⟨suits, holds, -⟩ := sound.operand holds reads hv
  have converted := stored_convert? here.promised s₂ v stored r s₃ hr
  have holds := holds_asked holds (fun _ _ => σ.keeps_convert? v stored) hr
  refine ⟨?_, holds_writePlace here named holds (suits_taken takes suits converted) found _ s₄ written⟩
  show σ.world.classes.suits r i.type
  rw [type]
  exact converted.suits_getD suits

theorem sound_compoundAssign (here : σ.Hosts ctx config z Θ Φ) {i : Info} {target x : Expr} {op : ArithOp}
    {stored : Option Ty} (rule : ctx.Rule config (.assign i target (.compound op) x stored))
    (named : target.Named Θ z.env) (sound_place : σ.SoundPlace o z.env Φ target)
    (sound_old : σ.Sound o z.env Φ target) (sound : σ.Sound o z.env Φ x) :
    σ.Sound o z.env Φ (.assign i target (.compound op) x stored) := by
  obtain ⟨result, computed, rfl, type⟩ := rule
  intro s holds reads
  obtain ⟨first, behind⟩ := Bool.and_eq_true_iff.1 reads
  refine .bind fun p s₁ hp => .bind (.bind fun old s₂ hold => .bind fun v s₃ hv => fun new s₄ hnew => ?_)
  refine .bind fun r s₅ hr => .bind fun _ s₆ written => .pure ?_
  obtain ⟨found, holds⟩ := sound_place s holds first p s₁ hp
  obtain ⟨reads, behind⟩ := Bool.and_eq_true_iff.1 (Exec.check_of_after behind hp)
  obtain ⟨suits_old, holds⟩ := sound_readPlace here.promised sound_old holds found reads old s₂ hold
  have reads := Exec.check_of_after behind hold
  obtain ⟨suits, holds, -⟩ := sound.operand holds reads hv
  have holds := holds_asked holds (fun _ _ => .act _) hnew
  have suits_new := suits_computed computed suits_old suits hnew
  have converted := stored_convert? here.promised s₄ new _ r s₅ hr
  have holds := holds_asked holds (fun _ _ => σ.keeps_convert? new _) hr
  refine ⟨?_, holds_writePlace here named holds converted.suits_target found _ s₆ written⟩
  show σ.world.classes.suits r i.type
  rw [type]
  exact converted.suits_getD suits_new

theorem sound_arith {i : Info} {op : ArithOp} {a b : Expr} (rule : ctx.Rule config (.arith i op a b))
    (sound_a : σ.Sound o env Φ a) (sound_b : σ.Sound o env Φ b) : σ.Sound o env Φ (.arith i op a b) := by
  intro s holds reads
  refine .bind fun l s₁ hl => .bind fun r s₂ hr v s' hv => ?_
  obtain ⟨left, holds, reads⟩ := sound_a.operand holds reads hl
  obtain ⟨right, holds, -⟩ := sound_b.operand holds reads hr
  exact ⟨suits_computed rule left right hv, holds_asked holds (fun _ _ => .act _) hv⟩

theorem sound_logic {i : Info} {op : LogicOp} {a b : Expr} (rule : ctx.Rule config (.logic i op a b))
    (sound_a : σ.Sound o env Φ a) (sound_b : σ.Sound o env Φ b) : σ.Sound o env Φ (.logic i op a b) := by
  have type : i.type = .boolean := rule
  intro s holds reads v s' hv
  refine ⟨suits_of_eq ?_, ?_⟩
  · show _ = i.type.cls
    rw [type]
    exact classRef_logic s op _ _ v s' hv
  · refine holds_logic (.bind fun l s₁ hl l' s₂ hl' => ?_) v s' hv
    obtain ⟨-, holds, reads⟩ := sound_a.operand holds reads hl
    have holds := holds_asked holds (fun _ _ => .act _) hl'
    refine ⟨holds, (Bool.or_eq_true_iff.1 (Exec.check_of_after reads hl')).imp_right fun reads => ?_⟩
    refine .bind fun r s₃ hr r' s₄ hr' => ?_
    obtain ⟨-, holds, -⟩ := sound_b.operand holds reads hr
    exact holds_asked holds (fun _ _ => .act _) hr'

theorem sound_compare {i : Info} {op : CompareOp} {a b : Expr} (rule : ctx.Rule config (.compare i op a b))
    (sound_a : σ.Sound o env Φ a) (sound_b : σ.Sound o env Φ b) : σ.Sound o env Φ (.compare i op a b) := by
  have type : i.type = .boolean := rule
  intro s holds reads
  refine .bind fun l s₁ hl => .bind fun r s₂ hr => .map fun b s' hb => ?_
  obtain ⟨-, holds, reads⟩ := sound_a.operand holds reads hl
  obtain ⟨-, holds, -⟩ := sound_b.operand holds reads hr
  refine ⟨suits_of_eq ?_, holds_asked holds (fun _ _ => .act _) hb⟩
  show _ = i.type.cls
  rw [type]
  rfl

theorem sound_unary {i : Info} {op : UnaryOp} {x : Expr} (rule : ctx.Rule config (.unary i op x))
    (sound : σ.Sound o env Φ x) : σ.Sound o env Φ (.unary i op x) := by
  intro s holds reads
  refine .bind fun v s₁ hv r s' hr => ?_
  obtain ⟨suits, holds, -⟩ := sound.operand holds reads hv
  exact ⟨suits_unary rule suits hr, holds_asked holds (fun _ _ => σ.keeps_unary op v) hr⟩

theorem sound_step (here : σ.Hosts ctx config z Θ Φ) {i : Info} {op : StepOp} {target : Expr}
    (rule : ctx.Rule config (.step i op target)) (named : target.Named Θ z.env)
    (sound_place : σ.SoundPlace o z.env Φ target) (sound_old : σ.Sound o z.env Φ target) :
    σ.Sound o z.env Φ (.step i op target) := by
  have type : i.type = target.type := rule
  intro s holds reads
  obtain ⟨first, behind⟩ := Bool.and_eq_true_iff.1 reads
  refine .bind fun p s₁ hp => .bind fun old s₂ hold => .bind fun new s₃ hnew => .bind fun _ s₄ written => .pure ?_
  obtain ⟨found, holds⟩ := sound_place s holds first p s₁ hp
  obtain ⟨suits, holds⟩ := sound_readPlace here.promised sound_old holds found (Exec.check_of_after behind hp) old s₂ hold
  have suits_new := suits_counted here.promised suits s₂ new s₃ hnew
  have holds := holds_asked holds (fun _ _ => σ.keeps_counted op target.type old) hnew
  refine ⟨?_, holds_writePlace here named holds suits_new found _ s₄ written⟩
  show σ.world.classes.suits old i.type
  rw [type]
  exact suits

theorem sound_cast (promised : σ.world.KeepsTypes) {i : Info} {t : Ty} {x : Expr} (rule : ctx.Rule config (.cast i t x))
    (sound : σ.Sound o env Φ x) : σ.Sound o env Φ (.cast i t x) := by
  have type : i.type = t := rule
  intro s holds reads
  refine .bind fun v s₁ hv r s' hr => ?_
  obtain ⟨-, holds, -⟩ := sound.operand holds reads hv
  refine ⟨?_, holds_asked holds (fun _ _ => .act _) hr⟩
  show σ.world.classes.suits r i.type
  rw [type]
  exact suits_convert promised s₁ v t r s' hr

theorem sound_conditional (serves : σ.Serves ctx config) {i : Info} {c a b : Expr}
    (rule : ctx.Rule config (.conditional i c a b)) (sound_c : σ.Sound o env Φ c) (sound_a : σ.Sound o env Φ a)
    (sound_b : σ.Sound o env Φ b) : σ.Sound o env Φ (.conditional i c a b) := by
  have type : i.type = ctx.classes.unify a.type b.type := rule
  have classes : ctx.classes = σ.world.classes := congrArg World.classes serves.world
  -- the type is wider than that of either branch, whichever is taken
  obtain ⟨wider, wider'⟩ := σ.world.classes.widens_unify a.type b.type
  rw [classes] at type
  rw [← type] at wider wider'
  intro s holds reads
  refine .bind fun v s₁ hv => .bind fun holds_c s₂ hc r s' hr => ?_
  obtain ⟨-, holds, reads⟩ := sound_c.operand holds reads hv
  have reads := Exec.check_of_after reads hc
  have holds := holds_asked holds (fun _ _ => .act _) hc
  cases holds_c with
  | true =>
    obtain ⟨suits, holds, -⟩ := sound_a.operand holds reads hr
    exact ⟨suits_of_widens serves.promised.nullAlone suits wider, holds⟩
  | false =>
    obtain ⟨suits, holds, -⟩ := sound_b.operand holds reads hr
    exact ⟨suits_of_widens serves.promised.nullAlone suits wider', holds⟩

theorem sound_construct (promised : σ.world.KeepsTypes) {i : Info} {c : ClassRef} {args : List Expr}
    {chosen : Option Nat} (rule : ctx.Rule config (.construct i c args chosen)) (sound_args : σ.SoundRow o env Φ args) :
    σ.Sound o env Φ (.construct i c args chosen) := by
  obtain ⟨cls, -⟩ := rule
  intro s holds reads
  refine .bind fun vs s₁ hvs v s' hv => ?_
  refine ⟨?_, holds_asked (sound_args s holds reads vs s₁ hvs) (fun _ _ => .act _) hv⟩
  show σ.world.classes.widens v.classRef i.type.cls
  rw [cls]
  exact suits_construct promised s₁ c vs chosen v s' hv

theorem sound_newArray {i : Info} {item : Ty} {items : List Expr} (rule : ctx.Rule config (.newArray i item items))
    (sound_items : σ.SoundRow o env Φ items) : σ.Sound o env Φ (.newArray i item items) := by
  have type : i.type = .arrayOf item := rule
  intro s holds reads
  refine .bind fun vs s₁ hvs v s' hv => ?_
  refine ⟨suits_of_eq ?_, holds_asked (sound_items s holds reads vs s₁ hvs) (fun _ _ => .act _) hv⟩
  show _ = i.type.cls
  rw [type]
  exact classRef_newArray s₁ item vs v s' hv

theorem sound_newSized {i : Info} {item : Ty} {length : Expr} (rule : ctx.Rule config (.newSized i item length))
    (sound : σ.Sound o env Φ length) : σ.Sound o env Φ (.newSized i item length) := by
  have type : i.type = .arrayOf item := rule
  intro s holds reads
  refine .bind fun n s₁ hn v s' hv => ?_
  obtain ⟨-, holds, -⟩ := sound.operand holds reads hn
  refine ⟨suits_of_eq ?_, holds_asked holds (fun _ _ => σ.keeps_newSized item n) hv⟩
  show _ = i.type.cls
  rw [type]
  exact classRef_newSized s₁ item n v s' hv

theorem sound_inlineList {i : Info} {items : List Expr} (rule : ctx.Rule config (.inlineList i items))
    (sound_items : σ.SoundRow o env Φ items) : σ.Sound o env Φ (.inlineList i items) := by
  have type : i.type = .listOf (ctx.classes.commonType (items.map Expr.type)) := rule
  intro s holds reads
  refine .bind fun vs s₁ hvs v s' hv => ?_
  refine ⟨suits_of_eq ?_, holds_asked (sound_items s holds reads vs s₁ hvs) (fun _ _ => .act _) hv⟩
  show _ = i.type.cls
  rw [type]
  have made : Gives (Exec.act (Act.newList vs)) s₁ fun r _ => r.classRef = .builtin .list :=
    .act (World.classRef_newList vs s₁.store)
  exact made v s' hv

theorem sound_inlineMap {i : Info} {entries : List (Expr × Expr)} (rule : ctx.Rule config (.inlineMap i entries))
    (sound_entries : ∀ s : Running, s.Holds o env Φ → σ.readsEntries entries s →
      Gives (σ.entryValues entries) s fun _ s' => s'.Holds o env Φ) :
    σ.Sound o env Φ (.inlineMap i entries) := by
  have type : i.type = .mapOf (ctx.classes.commonType (entries.map (·.1.type)))
    (ctx.classes.commonType (entries.map (·.2.type))) := rule
  intro s holds reads
  refine .bind fun vs s₁ hvs v s' hv => ?_
  refine ⟨suits_of_eq ?_, holds_asked (sound_entries s holds reads vs s₁ hvs) (fun _ _ => .act _) hv⟩
  show _ = i.type.cls
  rw [type]
  have made : Gives (Exec.act (Act.newMap vs)) s₁ fun r _ => r.classRef = .builtin .map :=
    .act (World.classRef_newMap vs s₁.store)
  exact made v s' hv

/-! ## All expressions -/

mutual

/-- An expression evaluates to what suits its type. -/
theorem sound_value (here : σ.Hosts ctx config z Θ Φ) (e : Expr) (typed : ctx.WellTyped config z Θ e)
    (within : e.parts ⊆ o.nodes) : σ.Sound o z.env Φ e := by
  -- the induction is on the size of the expression: a target is taken up twice, for its place and for its old value
  have operand (x : Expr) (part : x ∈ e.inner) (smaller : sizeOf x < sizeOf e) : σ.Sound o z.env Φ x :=
    have part : x.parts ⊆ e.parts := Expr.parts_subset (List.mem_cons_of_mem e part)
    sound_value here x (fun n hn => typed n (part hn)) (List.Subset.trans part within)
  have place (x : Expr) (part : x ∈ e.inner) (smaller : sizeOf x < sizeOf e) : σ.SoundPlace o z.env Φ x :=
    have part : x.parts ⊆ e.parts := Expr.parts_subset (List.mem_cons_of_mem e part)
    holds_place here x (fun n hn => typed n (part hn)) (List.Subset.trans part within)
  have row (es : List Expr) (parts : Expr.partsAll es ⊆ e.inner) (smaller : sizeOf es < sizeOf e) :
      σ.SoundRow o z.env Φ es :=
    have parts : Expr.partsAll es ⊆ e.parts := List.subset_cons_of_subset e parts
    holds_values here es (fun n hn => typed n (parts hn)) (List.Subset.trans parts within)
  have rule := (typed e e.self_mem_parts).rule
  have named := (typed e e.self_mem_parts).named
  have node : e ∈ o.nodes := within e.self_mem_parts
  cases e with
  | constant i v => exact sound_constant rule
  | declared i name => exact sound_declared here named node
  | input i name site => exact sound_input named node
  | this i => exact sound_this here.toServes rule
  | classRef i c => exact sound_classRef rule
  | staticField i c name => exact sound_staticField here.toServes rule
  | property i receiver name site =>
    exact sound_property here.promised node (operand receiver (by simp [Expr.inner]) (by simp +arith))
  | methodCall i receiver name args site =>
    have sound := operand receiver (by simp [Expr.inner]) (by simp +arith)
    have sound_args := row args (by simp [Expr.inner, List.subset_cons_of_subset]) (by simp +arith)
    exact sound_methodCall here.promised node sound sound_args
  | functionCall i function args =>
    exact sound_functionCall here.toServes rule (row args (by simp [Expr.inner]) (by simp +arith))
  | convert i x target =>
    have sound := operand x (by simp [Expr.inner]) (by simp +arith)
    have sound_target := operand target (by simp [Expr.inner]) (by simp +arith)
    exact sound_convert here.promised rule sound sound_target
  | index i receiver position site =>
    have sound := operand receiver (by simp [Expr.inner]) (by simp +arith)
    have sound_position := operand position (by simp [Expr.inner]) (by simp +arith)
    exact sound_index node sound sound_position
  | assign i target op x stored =>
    have sound_place := place target (by simp [Expr.inner]) (by simp +arith)
    have sound_old := operand target (by simp [Expr.inner]) (by simp +arith)
    have target_named := (typed target (by simp [Expr.parts, Expr.inner])).named
    have sound := operand x (by simp [Expr.inner]) (by simp +arith)
    cases op with
    | plain => exact sound_plainAssign here rule target_named sound_place sound
    | compound op => exact sound_compoundAssign here rule target_named sound_place sound_old sound
  | arith i op a b =>
    have sound_a := operand a (by simp [Expr.inner]) (by simp +arith)
    have sound_b := operand b (by simp [Expr.inner]) (by simp +arith)
    exact sound_arith rule sound_a sound_b
  | logic i op a b =>
    have sound_a := operand a (by simp [Expr.inner]) (by simp +arith)
    have sound_b := operand b (by simp [Expr.inner]) (by simp +arith)
    exact sound_logic rule sound_a sound_b
  | compare i op a b =>
    have sound_a := operand a (by simp [Expr.inner]) (by simp +arith)
    have sound_b := operand b (by simp [Expr.inner]) (by simp +arith)
    exact sound_compare rule sound_a sound_b
  | unary i op x => exact sound_unary rule (operand x (by simp [Expr.inner]) (by simp +arith))
  | step i op target =>
    have sound_place := place target (by simp [Expr.inner]) (by simp +arith)
    have sound_old := operand target (by simp [Expr.inner]) (by simp +arith)
    have target_named := (typed target (by simp [Expr.parts, Expr.inner])).named
    exact sound_step here rule target_named sound_place sound_old
  | cast i t x => exact sound_cast here.promised rule (operand x (by simp [Expr.inner]) (by simp +arith))
  | conditional i c a b =>
    have sound_c := operand c (by simp [Expr.inner]) (by simp +arith)
    have sound_a := operand a (by simp [Expr.inner]) (by simp +arith)
    have sound_b := operand b (by simp [Expr.inner]) (by simp +arith)
    exact sound_conditional here.toServes rule sound_c sound_a sound_b
  | construct i c args chosen =>
    exact sound_construct here.promised rule (row args (by simp [Expr.inner]) (by simp +arith))
  | newArray i item items => exact sound_newArray rule (row items (by simp [Expr.inner]) (by simp +arith))
  | newSized i item length => exact sound_newSized rule (operand length (by simp [Expr.inner]) (by simp +arith))
  | inlineList i items => exact sound_inlineList rule (row items (by simp [Expr.inner]) (by simp +arith))
  | inlineMap i entries =>
    have parts : Expr.partsEntries entries ⊆ (Expr.inlineMap i entries).parts := List.subset_cons_self _ _
    exact sound_inlineMap rule
      (holds_entryValues here entries (fun n hn => typed n (parts hn)) (List.Subset.trans parts within))
termination_by sizeOf e

/-- What is evaluated to find the place of a target. -/
theorem holds_place (here : σ.Hosts ctx config z Θ Φ) (e : Expr) (typed : ctx.WellTyped config z Θ e)
    (within : e.parts ⊆ o.nodes) : σ.SoundPlace o z.env Φ e := by
  intro s holds reads
  have operand (x : Expr) (part : x ∈ e.inner) (smaller : sizeOf x < sizeOf e) : σ.Sound o z.env Φ x :=
    have part : x.parts ⊆ e.parts := Expr.parts_subset (List.mem_cons_of_mem e part)
    sound_value here x (fun n hn => typed n (part hn)) (List.Subset.trans part within)
  have node : e ∈ o.nodes := within e.self_mem_parts
  cases e with
  | property i receiver name site =>
    have receiver := operand receiver (by simp [Expr.inner]) (by simp +arith)
    refine .bind fun r s₁ hr => .pure ?_
    obtain ⟨-, holds, -⟩ := receiver.operand holds reads hr
    exact ⟨⟨o.memberAt_eq node rfl, fun e he => Place.noConfusion he⟩, holds⟩
  | index i receiver position site =>
    have receiver := operand receiver (by simp [Expr.inner]) (by simp +arith)
    have position := operand position (by simp [Expr.inner]) (by simp +arith)
    refine .bind fun r s₁ hr => .bind fun p s₂ hp => .pure ?_
    obtain ⟨-, holds, reads⟩ := receiver.operand holds reads hr
    obtain ⟨-, holds, -⟩ := position.operand holds reads hp
    exact ⟨⟨o.memberAt_eq node rfl, fun e he => Place.noConfusion he⟩, holds⟩
  | _ => exact .pure ⟨⟨node, fun e he => by cases he; rfl⟩, holds⟩
termination_by sizeOf e

/-- Expressions in a row. -/
theorem holds_values (here : σ.Hosts ctx config z Θ Φ) (es : List Expr)
    (typed : ∀ n ∈ Expr.partsAll es, ctx.Obeys config Θ z n) (within : Expr.partsAll es ⊆ o.nodes) :
    σ.SoundRow o z.env Φ es := by
  intro s holds reads
  cases es with
  | nil => exact .pure holds
  | cons e es =>
    have first : e.parts ⊆ Expr.partsAll (e :: es) := by simp
    have others : Expr.partsAll es ⊆ Expr.partsAll (e :: es) := by simp
    have head : σ.Sound o z.env Φ e :=
      sound_value here e (fun n hn => typed n (first hn)) (List.Subset.trans first within)
    refine .bind fun v s₁ hv => .bind fun vs s₂ hvs => .pure ?_
    obtain ⟨-, holds, reads⟩ := head.operand holds reads hv
    exact holds_values here es (fun n hn => typed n (others hn)) (List.Subset.trans others within) s₁ holds reads vs s₂ hvs
termination_by sizeOf es

/-- The entries of a map. -/
theorem holds_entryValues (here : σ.Hosts ctx config z Θ Φ) (es : List (Expr × Expr))
    (typed : ∀ n ∈ Expr.partsEntries es, ctx.Obeys config Θ z n) (within : Expr.partsEntries es ⊆ o.nodes) (s : Running)
    (holds : s.Holds o z.env Φ) (reads : σ.readsEntries es s) :
    Gives (σ.entryValues es) s fun _ s' => s'.Holds o z.env Φ := by
  match es with
  | [] => exact .pure holds
  | (k, v) :: es =>
    have first : k.parts ⊆ Expr.partsEntries ((k, v) :: es) := by simp
    have second : v.parts ⊆ Expr.partsEntries ((k, v) :: es) := by simp
    have others : Expr.partsEntries es ⊆ Expr.partsEntries ((k, v) :: es) := by simp
    have key : σ.Sound o z.env Φ k :=
      sound_value here k (fun n hn => typed n (first hn)) (List.Subset.trans first within)
    have value : σ.Sound o z.env Φ v :=
      sound_value here v (fun n hn => typed n (second hn)) (List.Subset.trans second within)
    refine .bind fun a s₁ ha => .bind fun b s₂ hb => .bind fun vs s₃ hvs => .pure ?_
    obtain ⟨-, holds, reads⟩ := key.operand holds reads ha
    obtain ⟨-, holds, reads⟩ := value.operand holds reads hb
    exact holds_entryValues here es (fun n hn => typed n (others hn)) (List.Subset.trans others within) s₂ holds reads vs
      s₃ hvs
termination_by sizeOf es

end

end Setting

end HostExpr
