import HostExpr.Proofs.Call.Failure
import HostExpr.Proofs.Engine.Calls
import HostExpr.Proofs.Execution.Steps
import HostExpr.Proofs.Watch.Run

/-!
# Failures of the host end a run

A body that reports a failure of the host ends the run with that failure, in the step that has called it: nothing more
is called, and heap and bindings stay as they are then. The steps that make other failures out of some, or go on behind
them, do so for none of these.
-/

namespace HostExpr

open Typed

/-! ## Steps -/

namespace Exec

variable {α β : Type} {w : World}

/-- The step keeps the bindings and calls no body that reports a failure of the host. -/
def Spared (x : Exec α) : Prop :=
  ∀ s, (x s).2.bindings = s.bindings ∧ ∃ new, (x s).2.store.trace = new ++ s.store.trace ∧ Untroubled new

/-- If a body reports a failure of the host, the step ends with the call and fails with the failure, and the bindings
are those that it started with. -/
def Heeds (w : World) (x : Exec α) : Prop :=
  ∀ s, (∃ new, (x s).2.store.trace = new ++ s.store.trace ∧ Untroubled new)
    ∨ ∃ e, (x s).1 = .error (.runtime (.host e)) ∧ (x s).2.bindings = s.bindings
      ∧ Nonempty (w.FailsWith e s.store (x s).2.store)

namespace Spared

theorem act {a : Act α} (h : Act.Spared a) : Spared (Exec.act a) := by
  intro s
  have spared := h s.store
  unfold Exec.act
  split
  · rename_i hr
    rw [hr] at spared
    exact ⟨rfl, spared⟩
  · rename_i hr
    rw [hr] at spared
    exact ⟨rfl, spared⟩

theorem pure (a : α) : Spared (Pure.pure a) := fun _ => ⟨rfl, [], rfl, .nil⟩

theorem fail (e : RuntimeError) : Spared (Exec.fail e : Exec α) := fun _ => ⟨rfl, [], rfl, .nil⟩

theorem readName (name : String) : Spared (Exec.readName name) := fun _ => ⟨rfl, [], rfl, .nil⟩

theorem nested {x : Exec α} (limits : Limits) (h : Spared x) : Spared (Exec.nested limits x) := by
  intro s
  unfold Exec.nested
  split
  · exact ⟨rfl, [], rfl, .nil⟩
  · exact h { s with depth := s.depth + 1 }

theorem bind {x : Exec α} {f : α → Exec β} (hx : Spared x) (hf : ∀ a, Spared (f a)) : Spared (x >>= f) := by
  intro s
  obtain ⟨kept, new, grown, untroubled⟩ := hx s
  rw [bind_eq_bindCont]
  cases (x s).1 with
  | error e => exact ⟨kept, new, grown, untroubled⟩
  | ok a =>
    obtain ⟨kept', more, grown', untroubled'⟩ := hf a (x s).2
    refine ⟨kept'.trans kept, more ++ new, ?_, untroubled'.append untroubled⟩
    show (f a (x s).2).2.store.trace = _
    rw [grown', grown, List.append_assoc]

end Spared

namespace Heeds

theorem of_spared {x : Exec α} (h : Spared x) : Heeds w x := fun s => .inl (h s).2

/-- A step that leaves the store alone. -/
theorem still {x : Exec α} (h : ∀ s, (x s).2.store = s.store) : Heeds w x :=
  fun s => .inl ⟨[], congrArg Store.trace (h s), .nil⟩

theorem act {a : Act α} (h : Act.Heeds w a) : Heeds w (Exec.act a) := by
  intro s
  have heeds := h s.store
  unfold Exec.act
  split
  · rename_i hr
    rw [hr] at heeds
    exact .inl (heeds.resolve_right fun ⟨_, failed, _⟩ => by cases failed)
  · rename_i hr
    rw [hr] at heeds
    rcases heeds with calm | ⟨e, failed, ended⟩
    · exact .inl calm
    · cases failed
      exact .inr ⟨e, rfl, rfl, ended⟩

/-- A step that comes behind others, which keep the bindings. -/
theorem bind {x : Exec α} {f : α → Exec β} (hx : Spared x) (hf : ∀ a, Heeds w (f a)) : Heeds w (x >>= f) := by
  intro s
  obtain ⟨kept, new, grown, untroubled⟩ := hx s
  rw [bind_eq_bindCont]
  cases (x s).1 with
  | error e => exact .inl ⟨new, grown, untroubled⟩
  | ok a =>
    rcases hf a (x s).2 with ⟨more, grown', untroubled'⟩ | ⟨e, failed, kept', ⟨ended⟩⟩
    · refine .inl ⟨more ++ new, ?_, untroubled'.append untroubled⟩
      show (f a (x s).2).2.store.trace = _
      rw [grown', grown, List.append_assoc]
    · exact .inr ⟨e, failed, kept'.trans kept, ⟨ended.after grown untroubled⟩⟩

/-- A step that gives something else in the end. -/
theorem giving {x : Exec α} (hx : Heeds w x) (b : β) : Heeds w (x >>= fun _ => Pure.pure b) := by
  intro s
  rw [bind_eq_bindCont]
  rcases hx s with calm | ⟨e, failed, ended⟩
  · cases (x s).1 with
    | error e => exact .inl calm
    | ok a => exact .inl calm
  · rw [failed]
    exact .inr ⟨e, rfl, ended⟩

/-- A change of the state that leaves the store as it is. -/
theorem modify {f : Running → Running} (store : ∀ s, (f s).store = s.store) : Heeds w (modifyThe Running f) :=
  still store

theorem writeName (name : String) (v : Value) : Heeds w (Exec.writeName name v) := by
  refine modify fun s => ?_
  split <;> rfl

theorem declare (name : String) (v : Value) : Heeds w (Exec.declare name v) := by
  refine modify fun s => ?_
  split <;> rfl

/-- A use of a call site, with or without the site. -/
theorem atSite (site : Nat) {through : Site → Act α × Site} {otherwise : Act α}
    (sited : ∀ given : Site, Act.Heeds w (through given).1) (looked : Act.Heeds w otherwise) :
    Heeds w (Exec.atSite site through otherwise) := by
  intro s
  unfold Exec.atSite
  split
  · rename_i given _
    exact act (sited given) { s with sites := s.sites.setIfInBounds site (through given).2 }
  · exact act looked s

end Heeds

end Exec

namespace Setting

open Exec

variable (σ : Setting)

theorem spared_convert? (v : Value) (t : Option Ty) : Spared (σ.convert? v t) := by
  cases t with
  | none => exact .pure v
  | some t => exact .act (σ.world.spared_convertTo t v)

theorem spared_counted (op : StepOp) (type : Ty) (old : Value) : Spared (σ.counted op type old) :=
  (Spared.act (σ.world.spared_arith op.arith old (.int 1))).bind fun new => σ.spared_convert? new _

theorem heeds_getProperty (receiver : Value) (name : String) (site : Nat) :
    Heeds σ.world (σ.getProperty receiver name site) := by
  refine .atSite site (fun given => ?_) (σ.world.heeds_getProperty receiver name)
  exact given.heeds_access _ _ receiver (σ.world.heeds_getProperty receiver _)
    fun accessor => accessor.heeds_get σ.world _ receiver

theorem heeds_setProperty (receiver : Value) (name : String) (site : Nat) (v : Value) :
    Heeds σ.world (σ.setProperty receiver name site v) := by
  refine .atSite site (fun given => ?_) (σ.world.heeds_setProperty receiver name v)
  exact given.heeds_access _ _ receiver (σ.world.heeds_setProperty receiver _ v)
    fun accessor => accessor.heeds_set σ.world _ receiver v

theorem heeds_callMethod (receiver : Value) (name : String) (args : List Value) (site : Nat) :
    Heeds σ.world (σ.callMethod receiver name args site) := by
  refine .atSite site (fun given => ?_) (σ.world.heeds_callMethod receiver name args)
  exact given.heeds_access _ _ receiver (σ.world.heeds_callMethod receiver _ args)
    fun accessor => accessor.heeds_call σ.world _ receiver args

theorem heeds_getIndex (receiver position : Value) (site : Nat) :
    Heeds σ.world (σ.getIndex receiver position site) := by
  refine .atSite site (fun given => ?_) (σ.world.heeds_getIndex receiver position)
  exact given.heeds_accessIndex _ _ receiver fun accessor => accessor.heeds_getIndex σ.world receiver position

theorem heeds_setIndex (receiver position : Value) (site : Nat) (v : Value) :
    Heeds σ.world (σ.setIndex receiver position site v) := by
  refine .atSite site (fun given => ?_) (σ.world.heeds_setIndex receiver position v)
  exact given.heeds_accessIndex _ _ receiver fun accessor => accessor.heeds_setIndex σ.world receiver position v

/-- An input that the root fails to give fails as the root does, unless the root lacks it. -/
theorem heeds_readInput (name : String) (site : Nat) : Heeds σ.world (σ.readInput name site) := by
  intro s
  unfold readInput
  split
  · exact .inl ⟨[], rfl, .nil⟩
  · split
    · exact .inl ⟨[], rfl, .nil⟩
    · have heeds := σ.heeds_getProperty σ.root name site s
      split
      · -- the root has failed, for want of the member or otherwise
        rename_i e s' he
        rw [he] at heeds
        rcases heeds with calm | ⟨e, failed, ended⟩
        · exact .inl calm
        · cases failed
          exact .inr ⟨e, rfl, ended⟩
      · exact heeds

theorem heeds_writeInput (name : String) (site : Nat) (v : Value) : Heeds σ.world (σ.writeInput name site v) := by
  intro s
  unfold writeInput
  split
  · exact .inl ⟨[], rfl, .nil⟩
  · have heeds := σ.heeds_setProperty σ.root name site v s
    split
    · rename_i e s' he
      rw [he] at heeds
      rcases heeds with calm | ⟨e, failed, ended⟩
      · -- a name that the root lacks becomes a variable
        split
        · exact .inl calm
        · exact .inl calm
      · cases failed
        exact .inr ⟨e, rfl, ended⟩
    · exact heeds

theorem heeds_writePlace (v : Value) (p : Place) : Heeds σ.world (σ.writePlace v p) := by
  cases p with
  | name target =>
    cases target with
    | declared info name => exact .writeName name v
    | input info name site => exact σ.heeds_writeInput name site v
    | _ => exact .of_spared (.fail _)
  | property receiver name site => exact σ.heeds_setProperty receiver name site v
  | index receiver position site => exact σ.heeds_setIndex receiver position site v

theorem heeds_staticField (c : ClassRef) (field : String) : Exec.Heeds σ.world (σ.staticField c field) := by
  unfold staticField
  split
  · exact .of_spared (.pure _)
  · exact .of_spared (.fail _)

theorem heeds_callFunction (function : Nat) (args : List Value) :
    Exec.Heeds σ.world (σ.callFunction function args) := by
  unfold callFunction
  split
  · exact .act (σ.world.heeds_boundCall _ .null _ args)
  · exact .of_spared (.pure _)

theorem spared_convertToClass (v target : Value) : Spared (σ.convertToClass v target) := by
  unfold convertToClass
  split
  · exact .act (σ.world.spared_convert v _)
  · exact .fail _

theorem spared_unary (op : UnaryOp) (operand : Value) : Spared (σ.unary op operand) := by
  cases op with
  | neg =>
    unfold unary Exec.ofExcept
    dsimp only
    split
    · exact .pure _
    · exact .fail _
  | not => exact (Exec.Spared.act (σ.world.spared_truth operand)).bind fun _ => .pure _

theorem spared_newSized (item : Ty) (length : Value) : Spared (σ.newSized item length) := by
  unfold newSized
  refine .bind (.act (σ.world.spared_convertTo _ length)) fun n => ?_
  split
  · split
    · exact .act (Act.quiet_newArray item _).spared
    · exact .fail _
  · exact .fail _

theorem spared_itemsOf (v : Value) : Spared (σ.itemsOf v) := by
  unfold itemsOf
  split
  · exact .act (Act.quiet_items _).spared
  · exact .act (Act.quiet_items _).spared
  · exact .act (Act.Quiet.bind (Act.quiet_entries _) fun _ => .pure _).spared
  · exact .pure _
  · exact .pure _
  · exact .fail _

end Setting

/-- A step of a run heeds failures of the host. -/
theorem Action.heeds_perform (σ : Setting) (a : Action) : Exec.Heeds σ.world (a.perform σ) := by
  -- what an action does before it calls a body is spared, and it calls a body last
  cases a with
  | readName name => exact .of_spared (.readName name)
  | readInput name site => exact σ.heeds_readInput name site
  | staticField c field => exact σ.heeds_staticField c field
  | getProperty receiver name site => exact σ.heeds_getProperty receiver name site
  | callMethod receiver name args site => exact σ.heeds_callMethod receiver name args site
  | callFunction function args => exact σ.heeds_callFunction function args
  | convertToClass v target => exact .of_spared (σ.spared_convertToClass v target)
  | getIndex receiver position site => exact σ.heeds_getIndex receiver position site
  | assign v stored place =>
    exact .bind (σ.spared_convert? v stored) fun new => (σ.heeds_writePlace new place).giving new
  | count op type old place =>
    exact .bind (σ.spared_counted op type old) fun new => (σ.heeds_writePlace new place).giving old
  | countName op type name =>
    refine .bind (.nested σ.limits (.readName name)) fun old => .bind (σ.spared_counted op type old) fun new => ?_
    exact (Exec.Heeds.writeName name new).giving old
  | arith op left right => exact .of_spared (.act (σ.world.spared_arith op left right))
  | compare op left right =>
    exact .of_spared ((Exec.Spared.act (σ.world.spared_compare op left right)).bind fun _ => .pure _)
  | unary op operand => exact .of_spared (σ.spared_unary op operand)
  | truth v => exact .of_spared (.act (σ.world.spared_truth v))
  | fit v t => exact .of_spared (σ.spared_convert? v t)
  | construct c args chosen => exact .act (σ.world.heeds_construct c args chosen)
  | newArray item items =>
    refine .of_spared (.act (.bind (.mapM (σ.world.spared_convertTo item) items) fun items => ?_))
    exact (Act.quiet_newArray item items).spared
  | newSized item length => exact .of_spared (σ.spared_newSized item length)
  | newList items => exact .of_spared (.act (Act.quiet_newList items).spared)
  | newMap entries => exact .of_spared (.act (Act.quiet_newMap entries).spared)
  | declare name declared v inBlock =>
    refine .bind (σ.spared_convert? v declared) fun v => ?_
    cases inBlock with
    | true => exact (Exec.Heeds.declare name v).giving _
    | false => exact (Exec.Heeds.still (x := Exec.bind name v) fun _ => rfl).giving _
  | nameItem name v => exact .declare name v
  | itemsOf v => exact .of_spared (σ.spared_itemsOf v)
  | tick => exact .still fun s => by rw [perform, Exec.tick_eq]
  | giveUp => exact .still fun _ => rfl

/-! ## Runs -/

/-- From one point of a watched run to another, a body has reported a failure of the host, and the step that has called
it is the last one: the store is as the call has left it, and the bindings are those that the step started with. Before
the step no body has reported one. -/
structure Setting.EndsWith (σ : Setting) (e : HostError) (t t' : Watched) where
  last : Moment
  earlier : List Moment
  steps : t'.steps = last :: (earlier ++ t.steps)
  new : List Event
  grown : last.before.store.trace = new ++ t.state.store.trace
  untroubled : Untroubled new
  stopped : (last.action.perform σ last.before).1 = .error (.runtime (.host e))
  failed : σ.world.FailsWith e last.before.store t'.state.store
  bindings : t'.state.bindings = last.before.bindings

/-- Steps may have come before. -/
def Setting.EndsWith.after {σ : Setting} {e : HostError} {t₀ t t' : Watched} (h : σ.EndsWith e t t')
    {steps : List Moment} (taken : t.steps = steps ++ t₀.steps) {new : List Event}
    (grown : t.state.store.trace = new ++ t₀.state.store.trace) (untroubled : Untroubled new) : σ.EndsWith e t₀ t' where
  last := h.last
  earlier := h.earlier ++ steps
  steps := by rw [h.steps, taken, List.append_assoc]
  new := h.new ++ new
  grown := by rw [h.grown, grown, List.append_assoc]
  untroubled := h.untroubled.append untroubled
  stopped := h.stopped
  failed := h.failed
  bindings := h.bindings

/-- If a body reports a failure of the host, the watched computation ends in the step that has called it, and fails with
the failure. -/
def Watch.Heeds {α : Type} (σ : Setting) (x : Watch α) : Prop :=
  ∀ t : Watched, (∃ steps new, (x t).2.steps = steps ++ t.steps
      ∧ (x t).2.state.store.trace = new ++ t.state.store.trace ∧ Untroubled new)
    ∨ ∃ e, (x t).1 = .error (.runtime (.host e)) ∧ Nonempty (σ.EndsWith e t (x t).2)

/-- A watched run heeds failures of the host. -/
theorem Watch.follows_heeds (σ : Setting) (nodes : List Expr) (names : List String) :
    Watch.Follows σ σ nodes names fun x _ => Watch.Heeds σ x where
  root := rfl
  pure a t := .inl ⟨[], [], rfl, rfl, .nil⟩
  bind {α β x y f g} hx hf t := by
    rw [bind_eq_bindCont]
    rcases hx t with ⟨steps, new, taken, grown, untroubled⟩ | ⟨e, failed, ended⟩
    · -- nothing has gone wrong in the first part, so the second one decides
      cases (x t).1 with
      | error e => exact .inl ⟨steps, new, taken, grown, untroubled⟩
      | ok a =>
        rcases hf a (x t).2 with ⟨steps', more, taken', grown', untroubled'⟩ | ⟨e, failed, ⟨ended⟩⟩
        · refine .inl ⟨steps' ++ steps, more ++ new, ?_, ?_, untroubled'.append untroubled⟩
          · show (f a (x t).2).2.steps = _
            rw [taken', taken, List.append_assoc]
          · show (f a (x t).2).2.state.store.trace = _
            rw [grown', grown, List.append_assoc]
        · exact .inr ⟨e, failed, ⟨ended.after taken grown untroubled⟩⟩
    · rw [failed]
      exact .inr ⟨e, rfl, ended⟩
  step a _ t := by
    rcases a.heeds_perform σ t.state with ⟨new, grown, untroubled⟩ | ⟨e, failed, kept, ⟨ended⟩⟩
    · exact .inl ⟨[⟨a, t.state⟩], new, rfl, grown, untroubled⟩
    · exact .inr ⟨e, failed, ⟨⟨a, t.state⟩, [], rfl, [], rfl, .nil, failed, ended, kept⟩⟩
  deeper {α x y} hx t := by
    unfold Watch.deeper Watch.nested
    split
    · exact .inl ⟨[], [], rfl, rfl, .nil⟩
    · rcases hx { t with state := { t.state with depth := t.state.depth + 1 } } with calm | ⟨e, failed, ⟨ended⟩⟩
      · exact .inl calm
      · exact .inr ⟨e, failed, ⟨ended.last, ended.earlier, ended.steps, ended.new, ended.grown, ended.untroubled,
          ended.stopped, ended.failed, ended.bindings⟩⟩
  inBlock {α x y} hx t := by
    rcases hx { t with state := { t.state with frames := t.state.frames.push } } with calm | ⟨e, failed, ⟨ended⟩⟩
    · exact .inl calm
    · exact .inr ⟨e, failed, ⟨ended.last, ended.earlier, ended.steps, ended.new, ended.grown, ended.untroubled,
        ended.stopped, ended.failed, ended.bindings⟩⟩
  turns same := same _

/-! ## Executions -/

/-- **Failures of the host are not swallowed.** If a body reports a failure of the host while a program is executed,
with whatever host, strategy, limits, root, store and bindings, then the execution fails with just this failure. The call
is the latest event of the trace, and the step that has made it is the last step of the run: the store is as the call has
left it, and the bindings are those that this step has started with. -/
theorem Workspace.executeWith_of_hostError (ws : Workspace) (world : World) (strategy : Strategy) (limits : Limits)
    (root : Value) :
    let result := ws.executeWith world strategy limits root
    ∃ new, result.2.store.trace = new ++ ws.store.trace
      ∧ ∀ code receiver args e, .ran code receiver args (.error (.host e)) ∈ new →
        result.1 = .error (.stopped (.runtime (.host e)))
        ∧ (∃ older, new = .ran code receiver args (.error (.host e)) :: older)
        ∧ ∃ last earlier before during, (ws.watch world strategy limits root).2.steps = last :: earlier
          ∧ (last.action.perform (setting world strategy limits root) last.before).1 = .error (.runtime (.host e))
          ∧ before.trace = during ++ last.before.store.trace
          ∧ world.invoke code receiver args before = (.error (.host e), result.2.store)
          ∧ result.2.bindings = last.before.bindings := by
  by_cases setter : ws.expression.isSetter
  · unfold executeWith
    rw [if_pos setter]
    exact ⟨[], rfl, fun _ _ _ _ called => by cases called⟩
  · rw [ws.executeWith_eq_watched (by simpa using setter)]
    have heeds : (∃ steps new, (ws.watch world strategy limits root).2.steps = steps ++ []
          ∧ (ws.watch world strategy limits root).2.state.store.trace = new ++ ws.store.trace ∧ Untroubled new)
        ∨ ∃ e, (ws.watch world strategy limits root).1 = .error (.runtime (.host e))
          ∧ Nonempty ((setting world strategy limits root).EndsWith e
            (.start (.start ws.store ws.bindings ws.expression.sites)) (ws.watch world strategy limits root).2) :=
      (Watch.follows_heeds (setting world strategy limits root) _ _).runProgram _
    rcases heeds with ⟨steps, new, taken, grown, untroubled⟩ | ⟨e, outcome, ⟨ended⟩⟩
    · -- no event of the run is such a call
      refine ⟨new, grown, fun code receiver args e called => ?_⟩
      have calm := untroubled _ called
      cases calm
    · -- the latest event is such a call, and no older one of the run is
      let whole := ended.failed.after ended.grown ended.untroubled
      refine ⟨_ :: whole.older, whole.trace_last, fun code receiver args e' called => ?_⟩
      rcases List.mem_cons.1 called with same | called
      · obtain ⟨rfl, rfl, rfl, same⟩ := Event.ran.inj same
        cases same
        refine ⟨congrArg (Except.mapError EngineError.stopped) outcome, ⟨_, rfl⟩, ?_⟩
        exact ⟨ended.last, _, ended.failed.before, ended.failed.older, ended.steps, ended.stopped, ended.failed.trace,
          ended.failed.called, ended.bindings⟩
      · have calm := whole.untroubled _ called
        cases calm

/-! ## A box that takes nothing -/

/-- The engine of a host whose boxes refuse what they are given. -/
def fullBoxEngine : Engine where
  world := .ofBodies pointsAndBoxes [] [.fail "the box is full"]
    [(.host 0, (Wrapping.wrap "x").handler pointsAndBoxes (.host 0) [.builtin .string])]
  directory := .builtin
  functions := []
  limits := .default

/-- A program that would go on behind the refusal. -/
def fillsBox : String := "n = 1; if (b.take('origin') == 7 || true) n = 2; n"

/-- The refusal is what the execution comes to, and the variable keeps the value that it had before. -/
theorem executeWith_of_hostError_fillsBox :
    ∃ x, fullBoxEngine.compile fillsBox false .default = .ok x
      ∧ let result := (⟨.ofHeap .empty, [("b", .object 0 (.host 1))], x⟩ : Workspace).executeWith fullBoxEngine.world
          .specialized .default .null
        result.1 = .error (.stopped (.runtime (.host ⟨"the box is full"⟩)))
        ∧ result.2.bindings.get? "n" = some (.int 1) := by
  have found : (fullBoxEngine.compile fillsBox false .default).toOption.any fun x =>
      let result := (⟨.ofHeap .empty, [("b", .object 0 (.host 1))], x⟩ : Workspace).executeWith fullBoxEngine.world
        .specialized .default .null
      (result.2.store.trace.any fun event => event.hostError? = some ⟨"the box is full"⟩)
        && decide (result.2.bindings.get? "n" = some (.int 1)) := by
    decide +kernel
  obtain ⟨x, hx, checked⟩ := exists_ok_of_any found
  obtain ⟨called, kept⟩ := Bool.and_eq_true_iff.1 checked
  obtain ⟨event, listed, failed⟩ := List.any_eq_true.1 called
  obtain ⟨new, grown, heeded⟩ := Workspace.executeWith_of_hostError ⟨.ofHeap .empty, [("b", .object 0 (.host 1))], x⟩
    fullBoxEngine.world .specialized .default .null
  obtain ⟨code, receiver, args, rfl⟩ := Event.ran_of_hostError? (of_decide_eq_true failed)
  rw [grown] at listed
  have own := heeded code receiver args _ (by simpa [Store.ofHeap] using listed)
  exact ⟨x, hx, own.1, of_decide_eq_true kept⟩

end HostExpr
