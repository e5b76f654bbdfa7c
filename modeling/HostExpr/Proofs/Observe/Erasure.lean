import HostExpr.Proofs.Execution.Steps
import HostExpr.Proofs.Observe.Follow

/-!
# Observed runs are runs

Observing a run changes nothing of it: `Observe.runProgram_apply`. And whatever comes of the evaluation of a node, a
value, a return or an error, the depth is what it was before: `Setting.depth_deeper_value` and
`Setting.depth_deeper_run`.
-/

namespace HostExpr

open Typed

namespace Observe

variable {α β : Type}

/-- The observed computation does what the computation does and closes the nodes that it opens, and the computation
comes back from the levels that it enters. -/
structure Mirrors (x : Observe α) (y : Exec α) : Prop where
  outcome : ∀ o, (x o).1 = (y o.state).1
  state : ∀ o, (x o).2.state = (y o.state).2
  nodes : ∀ o, (x o).2.nodes = o.nodes
  depth : ∀ s, (y s).2.depth = s.depth

namespace Mirrors

theorem pure (a : α) : Mirrors (Pure.pure a) (Pure.pure a) :=
  ⟨fun _ => rfl, fun _ => rfl, fun _ => rfl, fun _ => rfl⟩

theorem throw (stop : Stop) : Mirrors (MonadExcept.throw stop : Observe α) (MonadExcept.throw stop) :=
  ⟨fun _ => rfl, fun _ => rfl, fun _ => rfl, fun _ => rfl⟩

theorem step {y : Exec α} (depth : ∀ s, (y s).2.depth = s.depth) : Mirrors (Observe.step y) y :=
  ⟨fun _ => rfl, fun _ => rfl, fun _ => rfl, depth⟩

theorem bind {x : Observe α} {y : Exec α} {f : α → Observe β} {g : α → Exec β} (h : Mirrors x y)
    (h' : ∀ a, Mirrors (f a) (g a)) : Mirrors (x >>= f) (y >>= g) := by
  -- after the first part both runs are in the same state with the same outcome
  have first (o : Observed) : (x >>= f) o = ExceptT.bindCont f (y o.state).1 (x o).2 := by
    rw [bind_eq_bindCont, h.outcome o]
  have second (o : Observed) : (y >>= g) o.state = ExceptT.bindCont g (y o.state).1 (x o).2.state := by
    rw [bind_eq_bindCont, h.state o]
  refine ⟨fun o => ?_, fun o => ?_, fun o => ?_, fun s => ?_⟩
  · rw [first, second]
    cases (y o.state).1 with
    | ok a => exact (h' a).outcome _
    | error e => rfl
  · rw [first, second]
    cases (y o.state).1 with
    | ok a => exact (h' a).state _
    | error e => rfl
  · rw [first, ← h.nodes o]
    cases (y o.state).1 with
    | ok a => exact (h' a).nodes _
    | error e => rfl
  · rw [bind_eq_bindCont, ← h.depth s]
    cases (y s).1 with
    | ok a => exact (h' a).depth _
    | error e => rfl

theorem inBlock {x : Observe α} {y : Exec α} (h : Mirrors x y) : Mirrors (Observe.inBlock x) (Exec.inBlock y) := by
  refine ⟨fun o => h.outcome _, fun o => ?_, fun o => h.nodes _, fun s => h.depth _⟩
  exact congrArg (fun s : Running => { s with frames := s.frames.popped }) (h.state _)

theorem inside {x : Observe α} {y : Exec α} (h : Mirrors x y) (node : TreeNode) :
    Mirrors (Observe.inside node x) y := by
  refine ⟨fun o => h.outcome _, fun o => h.state _, fun o => ?_, h.depth⟩
  show (x _).2.nodes.tail = o.nodes
  rw [h.nodes]
  rfl

theorem nested {x : Observe α} {y : Exec α} (h : Mirrors x y) (limits : Limits) :
    Mirrors (Observe.nested limits x) (Exec.nested limits y) := by
  refine ⟨fun o => ?_, fun o => ?_, fun o => ?_, fun s => ?_⟩
  · unfold Observe.nested Exec.nested
    split
    · rfl
    · exact h.outcome _
  · unfold Observe.nested Exec.nested
    split
    · rfl
    · exact congrArg (fun s : Running => { s with depth := s.depth - 1 }) (h.state _)
  · unfold Observe.nested
    split
    · rfl
    · exact h.nodes _
  · unfold Exec.nested
    split
    · rfl
    · show (y _).2.depth - 1 = s.depth
      rw [h.depth]
      exact Nat.add_sub_cancel ..

theorem tick (limits : Limits) : Mirrors (Observe.step (Exec.tick limits)) (Exec.tick limits) :=
  .step fun s => by rw [Exec.tick_eq]

/-- A count of turns or of runs of bodies, and then the computation. -/
theorem counting {x : Observe α} {y : Exec α} (h : Mirrors x y) {f : Observed → Observed}
    (state : ∀ o, (f o).state = o.state) (nodes : ∀ o, (f o).nodes = o.nodes) :
    Mirrors (do modifyThe Observed f; x) y :=
  ⟨fun o => (h.outcome (f o)).trans (by rw [state]), fun o => (h.state (f o)).trans (by rw [state]),
    fun o => (h.nodes (f o)).trans (nodes o), h.depth⟩

theorem turn (limits : Limits) {prepare : Exec α} (plain : prepare.Plain) {f : α → Observe Flow} {g : α → Exec Flow}
    (h : ∀ a, Mirrors (f a) (g a)) :
    Mirrors (Observe.turn limits prepare f)
      (do
        Exec.tick limits
        let a ← prepare
        Exec.inBlock (g a)) := by
  unfold Observe.turn
  refine .counting (.bind (.tick limits) fun _ => ?_) (fun _ => rfl) fun _ => rfl
  refine .bind (.step fun s => (plain s).depth) fun a => ?_
  exact .counting (.inBlock (h a)) (fun _ => rfl) fun _ => rfl

end Mirrors

/-- Everything that a run is put together from is observed as it is. -/
theorem follows_mirrors (σ : Setting) : Follows σ (fun _ => Mirrors) (fun _ => Mirrors) where
  pure a := .pure a
  bind h h' := h.bind h'
  step plain := .step fun s => (plain s).depth
  inside _ h := h.inside _
  deeper _ h := (h.nested σ.limits).inside _
  inBlock h := h.inBlock
  turn plain h := .turn σ.limits plain h
  turn_bind h h' := h.bind h'
  of_turn h := h
  whileTrue hc hx := whileTrue_related .pure .bind (.throw _) hc hx σ.turns

/-- The observed run of a program is the run. -/
theorem runProgram_apply (σ : Setting) (p : Program) (o : Observed) :
    σ.runProgram p o.state = ((Observe.runProgram σ p o).1, (Observe.runProgram σ p o).2.state) := by
  have mirrors := (follows_mirrors σ).runProgram p
  exact Prod.ext (mirrors.outcome o).symm (mirrors.state o).symm

/-- The observed run of a setter is the run. -/
theorem runSetter_apply (σ : Setting) (p : Program) (v : Value) (o : Observed) :
    σ.runSetter p v o.state = ((Observe.runSetter σ p v o).1, (Observe.runSetter σ p v o).2.state) := by
  have mirrors := (follows_mirrors σ).runSetter p v
  exact Prod.ext (mirrors.outcome o).symm (mirrors.state o).symm

end Observe

namespace Setting

variable (σ : Setting)

/-- Behind an expression the depth is what it was before. -/
theorem depth_deeper_value (e : Expr) (s : Running) : (σ.deeper (σ.value e) s).2.depth = s.depth :=
  (((Observe.follows_mirrors σ).value e).nested σ.limits).depth s

/-- Behind a statement the depth is what it was before. -/
theorem depth_deeper_run (st : Stmt) (s : Running) : (σ.deeper (σ.run st) s).2.depth = s.depth :=
  (((Observe.follows_mirrors σ).run st).nested σ.limits).depth s

end Setting

end HostExpr
