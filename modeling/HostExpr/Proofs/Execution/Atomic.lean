import HostExpr.Proofs.Conversion.Growth
import HostExpr.Proofs.Execution.Assigned

/-!
# Stores that fail

A store does all its checks and conversions before it changes anything. So where a store fails after its receiver, its
index and its value have been evaluated, the frames and the bindings are as they were, and so are all cells of the heap;
there may be new ones, which conversions have added. Only a setter of the host, which may do what it likes with the
heap before it fails, is left out: `Setting.failsCleanly_of_failsToStore` says so of every assignment and step in a
compiled program, and of every run of a setter.

Conversions of the host are taken to change no cell.
-/

namespace HostExpr

open Typed

/-! ## Stores into the heap -/

namespace World

/-- Code that the class of a value has to set a property: the setter of a property, or, where there is no property, a
method that stands for it. -/
inductive SetsBy (w : World) (receiver : Value) (name : String) : Code → Prop
  | property {p : Property} {get : Option Code} {set : Code}
      (found : w.classes.property? receiver.classRef name = some p) (kind : p.kind = .computed get (some set)) :
      SetsBy w receiver name set
  | method {m : Method} (none : w.classes.property? receiver.classRef name = none)
      (found : w.classes.setterMethod? receiver.classRef name = some m) : SetsBy w receiver name m.code

/-- The failure is that of a setter: it was run when no cell of the first store had changed yet, and it left the second
store. -/
def SetterFails (w : World) (s : Store) (e : RuntimeError) (s' : Store) : Prop :=
  ∃ receiver name code args before, w.SetsBy receiver name code ∧ s.heap.Grows before.heap
    ∧ w.invoke code receiver args before = (.error e, s')

theorem SetterFails.of_grows {w : World} {s s' s'' : Store} {e : RuntimeError} (grown : s.heap.Grows s'.heap)
    (h : w.SetterFails s' e s'') : w.SetterFails s e s'' := by
  obtain ⟨receiver, name, code, args, before, sets, grown', ran⟩ := h
  exact ⟨receiver, name, code, args, before, sets, grown.trans grown', ran⟩

end World

namespace Act

variable {α β : Type} {w : World}

/-- A computation that fails has changed no cell, unless a setter has failed. -/
def Atomic (w : World) (x : Act α) : Prop :=
  ∀ s e s', x s = (.error e, s') → s.heap.Grows s'.heap ∨ w.SetterFails s e s'

/-- The computation does not fail. -/
def Succeeds (x : Act α) : Prop := ∀ s, ∃ a s', x s = (.ok a, s')

theorem adds_ofAnswer (answer : Option α) : Adds (ofAnswer answer) := by
  unfold ofAnswer
  split
  · exact .pure _
  · exact .throw _

theorem succeeds_setItems (h : Handle) (vs : List Value) : Succeeds (setItems h vs) := fun _ => ⟨_, _, rfl⟩

theorem succeeds_setEntries (h : Handle) (es : Entries) : Succeeds (setEntries h es) := fun _ => ⟨_, _, rfl⟩

namespace Atomic

variable {x : Act α} {f : α → Act β}

theorem of_adds (hx : Adds x) : Atomic w x := fun s e s' failed => .inl (by
  have grown := hx s
  rwa [failed] at grown)

theorem of_succeeds (hx : Succeeds x) : Atomic w x := fun s e s' failed => by
  obtain ⟨a, s'', given⟩ := hx s
  rw [given] at failed
  cases failed

theorem throw (e : RuntimeError) : Atomic w (throw e : Act α) := .of_adds (.throw e)

/-- What changes no cell comes before the store. -/
theorem bind (hx : Adds x) (hf : ∀ a, Atomic w (f a)) : Atomic w (x >>= f) := by
  intro s e s' failed
  have grown := hx s
  rw [bind_eq_bindCont] at failed
  cases outcome : (x s).1 with
  | error e' =>
    rw [outcome] at failed
    cases failed
    exact .inl grown
  | ok a =>
    rw [outcome] at failed
    rcases hf a (x s).2 e s' failed with kept | setter
    · exact .inl (grown.trans kept)
    · exact .inr (setter.of_grows grown)

/-- What comes behind the store does not fail. -/
theorem andThen (hx : Atomic w x) (hf : ∀ a, Succeeds (f a)) : Atomic w (x >>= f) := by
  intro s e s' failed
  rw [bind_eq_bindCont] at failed
  cases outcome : (x s).1 with
  | error e' =>
    rw [outcome] at failed
    cases failed
    exact hx s e (x s).2 (Prod.ext outcome rfl)
  | ok a =>
    rw [outcome] at failed
    obtain ⟨b, s'', given⟩ := hf a (x s).2
    cases failed.symm.trans given

theorem mapPut (h : Handle) (key value : Value) : Atomic w (mapPut h key value) := by
  unfold Act.mapPut
  refine .bind (fun s => .refl s.heap) fun heap => .bind (adds_ofAnswer _) fun (es, old) => ?_
  exact .andThen (.of_succeeds (succeeds_setEntries h es)) fun _ s => ⟨old, s, rfl⟩

end Atomic

end Act

namespace World

open Act

variable {w : World}

/-- A setter may do what it likes. -/
theorem atomic_invoke {receiver : Value} {name : String} {code : Code} (sets : w.SetsBy receiver name code)
    (args : List Value) : Atomic w (w.invoke code receiver args) := fun s _ _ failed =>
  .inr ⟨receiver, name, code, args, s, sets, .refl s.heap, failed⟩

theorem adds_bindArgs (adds : w.OnlyAdds) (params : List Ty) (args : List Value) : Adds (w.bindArgs params args) :=
  .mapM (fun (arg, param) => adds_convertTo adds param arg) _

theorem atomic_setMember (adds : w.OnlyAdds) (receiver : Value) (name : String) (v : Value) :
    Atomic w (w.setMember receiver name v) := by
  unfold setMember
  split
  · rename_i property found
    dsimp only
    split
    · refine .bind (adds_convertTo adds _ v) fun fitted => .bind (adds_items _) fun _ => ?_
      exact .of_succeeds (succeeds_setItems _ _)
    · -- a setter is the last that is asked for, and after it nothing can fail
      rename_i kind
      refine .bind (adds_convertTo adds _ v) fun fitted => ?_
      exact .andThen (atomic_invoke (.property found kind) _) fun _ s => ⟨(), s, rfl⟩
    · exact .throw _
  · rename_i none
    split
    · rename_i setter found
      refine .bind (adds_bindArgs adds _ _) fun args => ?_
      exact .andThen (atomic_invoke (.method none found) args) fun _ s => ⟨(), s, rfl⟩
    · exact .throw _

theorem atomic_setProperty (adds : w.OnlyAdds) (receiver : Value) (name : String) (v : Value) :
    Atomic w (w.setProperty receiver name v) := by
  unfold setProperty
  split
  · exact .throw _
  · exact .andThen (.mapPut _ _ v) fun _ s => ⟨(), s, rfl⟩
  · exact atomic_setMember adds receiver name v

theorem adds_position (adds : w.OnlyAdds) (index : Value) (length : Nat) : Adds (w.position index length) := by
  have within (n : Int) :
      Adds (if 0 ≤ n ∧ n < length then return n.toNat else throw (.indexOutOfBounds n length) : Act Nat) := by
    split
    · exact .pure _
    · exact .throw _
  unfold position
  split
  · exact .bind (.pure _) within
  · exact .bind (adds_convert adds index _) fun _ => .bind (.pure _) within

theorem atomic_setItem (adds : w.OnlyAdds) (h : Handle) (index v : Value) : Atomic w (w.setItem h index v) := by
  unfold setItem
  refine .bind (adds_items h) fun items => .bind (adds_position adds index _) fun i => ?_
  exact .bind (adds_items h) fun _ => .of_succeeds (succeeds_setItems h _)

theorem atomic_setIndex (adds : w.OnlyAdds) (receiver index v : Value) : Atomic w (w.setIndex receiver index v) := by
  unfold setIndex
  split
  · exact .throw _
  · exact atomic_setItem adds _ index v
  · refine .bind (adds_items _) fun items => .bind (adds_position adds index _) fun i => ?_
    refine .bind (adds_convertTo adds _ v) fun fitted => .bind (adds_items _) fun _ => ?_
    exact .of_succeeds (succeeds_setItems _ _)
  · exact .andThen (.mapPut _ index v) fun _ s => ⟨(), s, rfl⟩
  · exact .throw _

end World

/-! ## Steps of a run that fail -/

/-- The frames, the bindings and all cells of the first state are as they were; there may be new cells. -/
structure Running.Untouched (s s' : Running) : Prop where
  frames : s'.frames = s.frames
  bindings : s'.bindings = s.bindings
  heap : s.store.heap.Grows s'.store.heap

/-- The failure leaves the frames and the bindings as they were, and all cells, unless it is that of a setter. -/
structure World.FailsCleanly (w : World) (s : Running) (stop : Stop) (s' : Running) : Prop where
  frames : s'.frames = s.frames
  bindings : s'.bindings = s.bindings
  heap : s.store.heap.Grows s'.store.heap ∨ ∃ e, stop = .runtime e ∧ w.SetterFails s.store e s'.store

variable {w : World} {s s' s'' : Running} {stop : Stop}

theorem Running.Untouched.refl (s : Running) : s.Untouched s := ⟨rfl, rfl, .refl s.store.heap⟩

theorem Running.Untouched.cleanly (h : s.Untouched s') (stop : Stop) : w.FailsCleanly s stop s' :=
  ⟨h.frames, h.bindings, .inl h.heap⟩

/-- What touches nothing comes before the failure. -/
theorem World.FailsCleanly.after (h : w.FailsCleanly s' stop s'') (untouched : s.Untouched s') :
    w.FailsCleanly s stop s'' where
  frames := h.frames.trans untouched.frames
  bindings := h.bindings.trans untouched.bindings
  heap := by
    rcases h.heap with kept | ⟨e, failed, setter⟩
    · exact .inl (untouched.heap.trans kept)
    · exact .inr ⟨e, failed, setter.of_grows untouched.heap⟩

namespace Exec

variable {α β : Type}

/-- What the first step leads to when the second one fails: the first one fails, or it comes to something from which the
second one fails. -/
theorem of_bind_error {x : Exec α} {f : α → Exec β} (h : (x >>= f) s = (.error stop, s')) :
    x s = (.error stop, s') ∨ ∃ a s₁, x s = (.ok a, s₁) ∧ f a s₁ = (.error stop, s') := by
  rw [bind_eq_bindCont] at h
  cases outcome : (x s).1 with
  | error e =>
    rw [outcome] at h
    cases h
    exact .inl (Prod.ext outcome rfl)
  | ok a =>
    rw [outcome] at h
    exact .inr ⟨a, (x s).2, Prod.ext outcome rfl, h⟩

/-- A computation that only adds cells touches nothing. -/
theorem untouched_act {x : Act α} (adds : x.Adds) (s : Running) : s.Untouched (act x s).2 := by
  have grown := adds s.store
  unfold act
  split
  · rename_i given
    rw [given] at grown
    exact ⟨rfl, rfl, grown⟩
  · rename_i failed
    rw [failed] at grown
    exact ⟨rfl, rfl, grown⟩

theorem failsCleanly_act {x : Act α} (atomic : x.Atomic w) (failed : act x s = (.error stop, s')) :
    w.FailsCleanly s stop s' := by
  unfold act at failed
  split at failed
  · cases failed
  · rename_i e store given
    cases failed
    refine ⟨rfl, rfl, ?_⟩
    rcases atomic s.store e store given with kept | setter
    · exact .inl kept
    · exact .inr ⟨e, rfl, setter⟩

end Exec

namespace Setting

variable {σ : Setting} {p : Program} {env : Environment} {v : Value}

open Exec

theorem untouched_convert (adds : σ.world.OnlyAdds) (v : Value) (t : Ty) (s : Running) :
    s.Untouched (σ.convert v t s).2 := untouched_act (World.adds_convertTo adds t v) s

theorem untouched_convert? (adds : σ.world.OnlyAdds) (v : Value) (t : Option Ty) (s : Running) :
    s.Untouched (σ.convert? v t s).2 := by
  cases t with
  | none => exact .refl s
  | some t => exact untouched_convert adds v t s

theorem untouched_fitEgress (adds : σ.world.OnlyAdds) (p : Program) (v : Value) (s : Running) :
    s.Untouched (σ.fitEgress p v s).2 := by
  unfold fitEgress
  split
  · exact .refl s
  · exact untouched_convert adds v p.egress s

/-! ## Stores into places -/

theorem failsCleanly_setProperty (adds : σ.world.OnlyAdds) {receiver : Value} {name : String} {site : Nat}
    (accessed : p.memberAt site = .property name) (bound : p.Binds σ.world.classes s.sites)
    (failed : σ.setProperty receiver name site v s = (.error stop, s')) : σ.world.FailsCleanly s stop s' := by
  obtain ⟨sites, -, looked⟩ : ∃ sites, p.Binds σ.world.classes sites
      ∧ σ.setProperty receiver name site v s = act (σ.world.setProperty receiver name v) { s with sites := sites } := by
    refine atSite_eq accessed (fun given own => ?_) (fun given own => own.set_eq σ.strategy receiver v) bound
    exact own.through σ.strategy (.set receiver v)
  rw [looked] at failed
  exact (failsCleanly_act (World.atomic_setProperty adds receiver name v) failed).after ⟨rfl, rfl, .refl _⟩

theorem failsCleanly_setIndex (adds : σ.world.OnlyAdds) {receiver position : Value} {site : Nat}
    (accessed : p.memberAt site = .index) (bound : p.Binds σ.world.classes s.sites)
    (failed : σ.setIndex receiver position site v s = (.error stop, s')) : σ.world.FailsCleanly s stop s' := by
  obtain ⟨sites, -, looked⟩ : ∃ sites, p.Binds σ.world.classes sites
      ∧ σ.setIndex receiver position site v s
        = act (σ.world.setIndex receiver position v) { s with sites := sites } := by
    refine atSite_eq accessed (fun given own => ?_)
      (fun given own => own.setIndex_eq σ.strategy receiver position v) bound
    exact own.through σ.strategy (.setIndex receiver position v)
  rw [looked] at failed
  exact (failsCleanly_act (World.atomic_setIndex adds receiver position v) failed).after ⟨rfl, rfl, .refl _⟩

/-- A name that is no variable of a block is bound, or is a property of the root. -/
theorem failsCleanly_writeInput (adds : σ.world.OnlyAdds) {name : String} {site : Nat}
    (accessed : p.memberAt site = .property name) (bound : p.Binds σ.world.classes s.sites)
    (failed : σ.writeInput name site v s = (.error stop, s')) : σ.world.FailsCleanly s stop s' := by
  unfold writeInput at failed
  split at failed
  · cases failed
  · split at failed
    · rename_i e s₁ refused
      split at failed
      · cases failed
      · cases failed
        exact failsCleanly_setProperty adds accessed bound refused
    · exact failsCleanly_setProperty adds accessed bound failed

theorem failsCleanly_writePlace (adds : σ.world.OnlyAdds) (wm : p.WellMade σ.world env) {place : Place}
    (hp : place.Of p) (bound : p.Binds σ.world.classes s.sites)
    (failed : σ.writePlace v place s = (.error stop, s')) : σ.world.FailsCleanly s stop s' := by
  cases place with
  | name target =>
    cases target with
    | declared i name => cases failed
    | input i name site => exact failsCleanly_writeInput adds (wm.memberAt_eq hp rfl) bound failed
    | _ =>
      cases failed
      exact (Running.Untouched.refl s).cleanly _
  | property receiver name site => exact failsCleanly_setProperty adds hp bound failed
  | index receiver position site => exact failsCleanly_setIndex adds hp bound failed

/-! ## Stores of a program -/

/-- A store of the program fails, or the conversion of what it stores: `s` is the state once the receiver, the index and
the value have been evaluated, and `s'` the one that the failure leaves. -/
inductive FailsToStore (σ : Setting) (p : Program) : Running → Stop → Running → Prop
  /-- An assignment, once its value is there; if the assignment combines it with the old one, then combined. -/
  | assign {i : Info} {target v : Expr} {op : AssignOp} {stored : Option Ty}
      (part : .assign i target op v stored ∈ Stmt.partsAll p.body) {s₀ s₁ s s' : Running} {place : Place} {new : Value}
      {stop : Stop} (sited : p.Binds σ.world.classes s₀.sites) (placed : σ.place target s₀ = (.ok place, s₁))
      (combined : σ.combine op (σ.readPlace (σ.deeper (σ.value target)) place) (σ.deeper (σ.value v)) s₁ = (.ok new, s))
      (failed : σ.value (.assign i target op v stored) s₀ = (.error stop, s')) : FailsToStore σ p s stop s'
  /-- A step up or down, once the value has been counted. -/
  | step {i : Info} {target : Expr} {op : StepOp} (part : .step i op target ∈ Stmt.partsAll p.body)
      {s₀ s₁ s₂ s s' : Running} {place : Place} {old new : Value} {stop : Stop}
      (sited : p.Binds σ.world.classes s₀.sites) (placed : σ.place target s₀ = (.ok place, s₁))
      (read : σ.readPlace (σ.deeper (σ.value target)) place s₁ = (.ok old, s₂))
      (computed : σ.arith op.arith old (.int 1) s₂ = (.ok new, s))
      (failed : σ.value (.step i op target) s₀ = (.error stop, s')) : FailsToStore σ p s stop s'
  /-- A run of a setter whose value cannot be made to fit. -/
  | unfit {target : Expr} {rest : List Stmt} (body : p.body = .expr target :: rest) {v : Value} {s s' : Running}
      {stop : Stop} (unfit : ∀ r s₁, σ.fitEgress p v s ≠ (.ok r, s₁))
      (failed : σ.runSetter p v s = (.error stop, s')) : FailsToStore σ p s stop s'
  /-- A run of a setter, once its target has been evaluated. -/
  | setter {target : Expr} {rest : List Stmt} (body : p.body = .expr target :: rest) {v fitted : Value}
      {s₀ s₁ s s' : Running} {place : Place} {stop : Stop} (sited : p.Binds σ.world.classes s₀.sites)
      (fits : σ.fitEgress p v s₀ = (.ok fitted, s₁)) (placed : σ.place target s₁ = (.ok place, s))
      (failed : σ.runSetter p v s₀ = (.error stop, s')) : FailsToStore σ p s stop s'

theorem proper_fitEgress (σ : Setting) (p : Program) (v : Value) :
    Proper σ.world p (σ.fitEgress p v) fun _ => True := by
  unfold fitEgress
  split
  · exact .pure trivial
  · exact σ.proper_convert p v _

/-- A value is converted and stored in a place. -/
theorem failsCleanly_convert?_writePlace (adds : σ.world.OnlyAdds) (wm : p.WellMade σ.world env) {α : Type}
    {place : Place} (hp : place.Of p) (bound : p.Binds σ.world.classes s.sites) {t : Option Ty} {answer : Value → α}
    (failed : (do
      let fitted ← σ.convert? v t
      σ.writePlace fitted place
      return answer fitted : Exec α) s = (.error stop, s')) : σ.world.FailsCleanly s stop s' := by
  have untouched := untouched_convert? adds v t s
  rcases of_bind_error failed with unfit | ⟨fitted, s₁, fits, failed⟩
  · rw [unfit] at untouched
    exact untouched.cleanly stop
  · rw [fits] at untouched
    obtain ⟨bound₁, -⟩ := (σ.proper_convert? p v t).of_ok bound fits
    rcases of_bind_error failed with refused | ⟨_, s₂, -, failed⟩
    · exact (failsCleanly_writePlace adds wm hp bound₁ refused).after untouched
    · cases failed

theorem failsCleanly_of_failsToStore (adds : σ.world.OnlyAdds) (wm : p.WellMade σ.world env)
    (h : σ.FailsToStore p s stop s') : σ.world.FailsCleanly s stop s' := by
  -- up to the store every part leaves the sites as the program expects them; the last part fails on its own
  cases h with
  | @assign i target v op stored part s₀ s₁ _ _ place new _ sited placed combined failed =>
    have within := Stmt.parts_subset_all _ part
    obtain ⟨left, right⟩ := List.append_subset.1 (List.Subset.trans (List.subset_cons_self _ _) within)
    obtain ⟨sited₁, hp⟩ := (proper_place wm target left).of_ok sited placed
    have reading := proper_readPlace (proper_deeper (proper_value wm target left)) hp
    have operand := proper_deeper (proper_value wm v right)
    obtain ⟨sited₂, -⟩ := (proper_combine op reading operand).of_ok sited₁ combined
    unfold value at failed
    rw [bind_of_ok placed, bind_of_ok combined] at failed
    exact failsCleanly_convert?_writePlace adds wm hp sited₂ failed
  | @step i target op part s₀ s₁ s₂ _ _ place old new _ sited placed read computed failed =>
    have within : target.parts ⊆ Stmt.partsAll p.body :=
      List.Subset.trans (List.subset_cons_self _ _) (Stmt.parts_subset_all _ part)
    obtain ⟨sited₁, hp⟩ := (proper_place wm target within).of_ok sited placed
    have reading := proper_readPlace (proper_deeper (proper_value wm target within)) hp
    obtain ⟨sited₂, -⟩ := reading.of_ok sited₁ read
    obtain ⟨sited₃, -⟩ := (σ.proper_arith p op.arith old (.int 1)).of_ok sited₂ computed
    unfold value at failed
    rw [bind_of_ok placed, bind_of_ok read] at failed
    unfold counted at failed
    rw [bind_assoc, bind_of_ok computed] at failed
    exact failsCleanly_convert?_writePlace adds wm hp sited₃ failed
  -- a value that does not fit is refused before the target is evaluated at all
  | @unfit target rest body v _ _ _ unfit failed =>
    have untouched := untouched_fitEgress adds p v s
    unfold runSetter at failed
    rw [body] at failed
    rcases of_bind_error failed with refused | ⟨fitted, s₁, fits, -⟩
    · rw [refused] at untouched
      exact untouched.cleanly stop
    · exact absurd fits (unfit fitted s₁)
  | @setter target rest body v fitted s₀ s₁ _ _ place _ sited fits placed failed =>
    have within : target.parts ⊆ Stmt.partsAll p.body := by
      rw [body]
      exact List.subset_append_left _ _
    obtain ⟨sited₁, -⟩ := (proper_fitEgress σ p v).of_ok sited fits
    obtain ⟨sited₂, hp⟩ := (proper_place wm target within).of_ok sited₁ placed
    unfold runSetter at failed
    rw [body] at failed
    dsimp only at failed
    rw [bind_of_ok fits, bind_of_ok placed] at failed
    exact failsCleanly_writePlace adds wm hp sited₂ failed

end Setting

/-- **Stores are atomic.** Let the conversions of the host change no cell. Whenever an assignment or a step in a
compiled program, or a run of a compiled setter, fails after its receiver, its index and its value have been evaluated,
under whatever strategy, root and bindings and in whatever state of the call sites, the frames and the bindings are as
they were at this point, and so are all cells of the heap; the cells may have changed only if it is a setter of the host
that failed, and then by what the setter did. -/
theorem Engine.failsCleanly {e : Engine} {source : String} {isSetter : Bool} {config : Config} {x : Expression}
    (h : e.compile source isSetter config = .ok x) (adds : e.world.OnlyAdds) {σ : Setting} (hσ : σ.world = e.world)
    {s s' : Running} {stop : Stop} (failed : σ.FailsToStore x.program s stop s') :
    s'.frames = s.frames ∧ s'.bindings = s.bindings
      ∧ ((∀ n < s.store.heap.size, s'.store.heap.cells[n]? = s.store.heap.cells[n]?)
        ∨ ∃ cause, stop = .runtime cause ∧ e.world.SetterFails s.store cause s'.store) := by
  have wm := wellMade_of_compile h
  rw [← hσ] at wm adds ⊢
  have clean := Setting.failsCleanly_of_failsToStore adds wm failed
  exact ⟨clean.frames, clean.bindings, clean.heap⟩

/-- A conversion was asked for. -/
def Event.isConversion : Event → Bool
  | .converted .. => true
  | .ran .. => false

/-- The program assigns a text that is no integer to the first item of an array of integers, which fails. -/
def refusesFirstItem (x : Expression) : Bool :=
  match x.program.body with
  | [.expr (.assign i (.index j (.input k "a" input) (.constant l (.int 0)) site) .plain (.constant m (.str "five"))
      stored)] =>
    match Setting.bare.value (.assign i (firstItem j k l input site) .plain (.constant m (.str "five")) stored)
        (oneItem x) with
    | (.error (.runtime (.conversion _)), s) => s.store.trace.head?.any Event.isConversion
    | _ => false
  | _ => false

/-- The text is refused where the array takes it, and the array still has its item. -/
theorem failsCleanly_refusesFirstItem :
    ∃ x i j k l m input site stored stop s', Engine.bare.compile "a[0] = 'five'" false .default = .ok x
      ∧ x.program.body
        = [.expr (.assign i (firstItem j k l input site) .plain (.constant m (.str "five")) stored)]
      ∧ Setting.bare.value (.assign i (firstItem j k l input site) .plain (.constant m (.str "five")) stored)
        (oneItem x) = (.error stop, s')
      ∧ s'.store.heap.cells[0]? = some (.items [.int 1]) := by
  have found : (Engine.bare.compile "a[0] = 'five'" false .default).toOption.any refusesFirstItem := by decide +kernel
  obtain ⟨x, hx, shape⟩ := exists_ok_of_any found
  unfold refusesFirstItem at shape
  split at shape
  · rename_i i j k input l site m stored body
    split at shape
    · rename_i cause s' failed
      have sited : x.program.Binds Setting.bare.world.classes (oneItem x).sites := by
        obtain ⟨body, program, env, -, -, rfl⟩ := Engine.compile_ok hx
        exact Expression.binds_fresh program env false Engine.bare.limits _
      have part : .assign i (firstItem j k l input site) .plain (.constant m (.str "five")) stored
          ∈ Stmt.partsAll x.program.body := by
        rw [body]
        exact List.mem_cons_self
      have fails : Setting.bare.FailsToStore x.program (oneItem x) (.runtime (.conversion cause)) s' :=
        .assign part sited rfl rfl failed
      obtain ⟨-, -, kept | ⟨e, -, receiver, name, code, args, before, -, -, ran⟩⟩ :=
        Engine.failsCleanly hx nofun rfl fails
      · exact ⟨x, i, j, k, l, m, input, site, stored, _, s', hx, body, failed, kept 0 Nat.zero_lt_one⟩
      · -- the last that was asked for is the conversion, and no setter
        have left : s'.store = (World.bare.invoke code receiver args before).2 := (congrArg Prod.snd ran).symm
        rw [left] at shape
        cases shape
    · cases shape
  · cases shape

end HostExpr
