import HostExpr.Engine.Basic
import HostExpr.Proofs.Execution.Steps
import HostExpr.Proofs.Watch.Follow

/-!
# Statements and programs side by side

A relation that goes through the steps of a program's statements relates its runs: the induction is on the statement.
The first such relation is that the watched run does what the run does, and takes it down: `runProgram_eq_watched`.
-/

namespace HostExpr

open Typed

namespace Watch.Follows

variable {σ σ' : Setting} {nodes : List Expr} {names : List String} {R : ∀ {α : Type}, Watch α → Exec α → Prop}

/-! ## Parts of statements -/

section

variable (h : Follows σ σ' nodes names R)
include h

theorem value? (e : Option Expr) (he : (e.map Expr.parts).getD [] ⊆ nodes) : R (Watch.value? σ e) (σ'.value? e) := by
  cases e with
  | none => exact h.pure _
  | some e => exact h.deeper (h.value e he)

theorem condition (cond : Expr) (hc : cond.parts ⊆ nodes) : R (Watch.condition σ cond) (σ'.condition cond) :=
  h.bind (h.deeper (h.value cond hc)) fun v => h.step (.truth v) trivial

theorem condition? (cond : Option Expr) (hc : (cond.map Expr.parts).getD [] ⊆ nodes) :
    R (Watch.condition? σ cond) (σ'.condition? cond) := by
  cases cond with
  | none => exact h.pure _
  | some cond => exact h.condition cond hc

theorem declareName (name : String) (declared : Option Ty) (init : Option Expr)
    (hi : (init.map Expr.parts).getD [] ⊆ nodes) (hn : name ∈ names) (inBlock : Bool) :
    R (Watch.declareName σ name declared init inBlock) (σ'.declareName name declared init inBlock) :=
  h.bind (h.value? init hi) fun v => h.step (.declare name declared v inBlock) hn

variable {x : Watch Flow} {y : Exec Flow} (body : R x y)
include body

theorem loopBody : R (Watch.loopBody σ x) (σ'.loopBody y) :=
  h.bind (h.step .tick trivial) fun _ => h.inBlock body

theorem forBody (update : List Expr) (hu : Expr.partsAll update ⊆ nodes) :
    R (Watch.forBody σ update x) (σ'.forBody update y) := by
  refine h.bind (h.loopBody body) fun flow => h.orReturn flow fun _ => ?_
  exact h.bind (h.values update hu) fun _ => h.pure _

theorem itemBody (name : String) (hn : name ∈ names) (declared : Option Ty) (item : Value) :
    R (Watch.itemBody σ name declared x item) (σ'.itemBody name declared y item) := by
  refine h.bind (h.step .tick trivial) fun _ => h.bind (h.step (.fit item declared) trivial) fun item => ?_
  exact h.inBlock (h.bind (h.step (.nameItem name item) hn) fun _ => body)

end

/-! ## Statements -/

mutual

theorem run (h : Follows σ σ' nodes names R) (s : Stmt) (hs : s.parts ⊆ nodes) (hn : s.declaredNames ⊆ names) :
    R (Watch.run σ s) (σ'.run s) := by
  have row (body : List Stmt) (smaller : sizeOf body < sizeOf s) (hb : Stmt.partsAll body ⊆ nodes)
      (hb' : Stmt.declaredNamesAll body ⊆ names) : R (Watch.runAll σ body .null) (σ'.runAll body .null) :=
    runAll h body hb hb' .null
  -- by recursion on the statement, as for expressions
  cases s with
  | expr e =>
    unfold Watch.run Setting.run
    exact h.map _ (h.value e hs)
  | declare info name declared init inBlock =>
    unfold Watch.run Setting.run
    exact h.declareName name declared init hs (hn List.mem_cons_self) inBlock
  | block info body =>
    unfold Watch.run Setting.run
    exact h.inBlock (row body (by simp +arith) hs hn)
  | branch info cond thenBody elseBody =>
    unfold Watch.run Setting.run
    unfold Stmt.parts at hs
    unfold Stmt.declaredNames at hn
    obtain ⟨head, last⟩ := List.append_subset.1 hs
    obtain ⟨first, second⟩ := List.append_subset.1 head
    obtain ⟨names₁, names₂⟩ := List.append_subset.1 hn
    refine h.bind (h.condition cond first) fun holds => ?_
    cases holds with
    | true => exact h.inBlock (row thenBody (by simp +arith) second names₁)
    | false =>
      cases elseBody with
      | none => exact h.pure _
      | some body => exact h.inBlock (row body (by simp +arith) last names₂)
  | whileLoop info cond body =>
    unfold Watch.run Setting.run
    obtain ⟨first, rest⟩ := List.append_subset.1 hs
    exact h.whileTrue (h.condition cond first) (h.loopBody (row body (by simp +arith) rest hn))
  | forLoop info init cond update body =>
    unfold Watch.run Setting.run
    unfold Stmt.parts at hs
    unfold Stmt.declaredNames at hn
    obtain ⟨head, last⟩ := List.append_subset.1 hs
    obtain ⟨head, updates⟩ := List.append_subset.1 head
    obtain ⟨start, checked⟩ := List.append_subset.1 head
    obtain ⟨names₁, names₂⟩ := List.append_subset.1 hn
    have turn := h.forBody (row body (by simp +arith) last names₂) update updates
    have loop := h.whileTrue (h.condition? cond checked) turn
    cases init with
    | none => exact h.inBlock loop
    | some first => exact h.inBlock (h.bind (h.deeper (run h first start names₁)) fun _ => loop)
  | forEach info name declared items body =>
    unfold Watch.run Setting.run
    obtain ⟨first, rest⟩ := List.append_subset.1 hs
    obtain ⟨own, others⟩ := List.cons_subset.1 hn
    refine h.bind (h.deeper (h.value items first)) fun v => h.bind (h.step (.itemsOf v) trivial) fun vs => ?_
    exact h.forEach (h.itemBody (row body (by simp +arith) rest others) name own declared) vs
  | returns info e =>
    unfold Watch.run Setting.run
    exact h.map _ (h.value? e hs)
  | nop info =>
    unfold Watch.run Setting.run
    exact h.pure _
termination_by sizeOf s

theorem runAll (h : Follows σ σ' nodes names R) (ss : List Stmt) (hs : Stmt.partsAll ss ⊆ nodes)
    (hn : Stmt.declaredNamesAll ss ⊆ names) (last : Value) : R (Watch.runAll σ ss last) (σ'.runAll ss last) := by
  cases ss with
  | nil =>
    unfold Watch.runAll Setting.runAll
    exact h.pure _
  | cons s ss =>
    unfold Watch.runAll Setting.runAll
    obtain ⟨first, rest⟩ := List.append_subset.1 hs
    obtain ⟨names₁, names₂⟩ := List.append_subset.1 hn
    refine h.bind (h.deeper (run h s first names₁)) fun flow => h.orReturn flow fun v => ?_
    exact runAll h ss rest names₂ v
termination_by sizeOf ss

end

/-- A run of a program. -/
theorem runProgram {p : Program} (h : Follows σ σ' (Stmt.partsAll p.body) (Stmt.declaredNamesAll p.body) R) :
    R (Watch.runProgram σ p) (σ'.runProgram p) :=
  h.bind (h.runAll p.body (List.Subset.refl _) (List.Subset.refl _) .null) fun flow => h.pure flow.value

end Watch.Follows

/-! ## What is watched is the run -/

/-- A watched computation does what another one does. -/
def Watch.Shows {α : Type} (x : Watch α) (y : Exec α) : Prop :=
  ∀ t : Watched, y t.state = ((x t).1, (x t).2.state)

/-- A watched run shows the run. -/
theorem Watch.follows_shows (σ : Setting) (nodes : List Expr) (names : List String) :
    Watch.Follows σ σ nodes names Watch.Shows where
  root := rfl
  pure a t := rfl
  -- the watched run and the plain one take the same way, since watching reads nothing back
  bind {α β x y f g} hx hf t := by
    show ExceptT.bindCont g (y t.state).1 (y t.state).2 = _
    rw [hx t]
    show ExceptT.bindCont g (x t).1 (x t).2.state
      = ((ExceptT.bindCont f (x t).1 (x t).2).1, (ExceptT.bindCont f (x t).1 (x t).2).2.state)
    cases (x t).1 with
    | ok a => exact hf a (x t).2
    | error e => rfl
  step a _ t := rfl
  deeper {α x y} hx t := by
    unfold Watch.deeper Watch.nested Setting.deeper Exec.nested
    split
    · rfl
    · dsimp only
      rw [hx { t with state := { t.state with depth := t.state.depth + 1 } }]
      rfl
  inBlock {α x y} hx t := by
    unfold Watch.inBlock Exec.inBlock
    dsimp only
    rw [hx { t with state := { t.state with frames := t.state.frames.push } }]
    rfl
  turns same := same _

/-- What a watched run of a program comes to is what the run comes to. -/
theorem Setting.runProgram_eq_watched (σ : Setting) (p : Program) (t : Watched) :
    σ.runProgram p t.state = ((Watch.runProgram σ p t).1, (Watch.runProgram σ p t).2.state) :=
  (Watch.follows_shows σ _ _).runProgram t

namespace Workspace

/-- What an execution gives, and leaves behind, when its run has come to an end. -/
def settle {α : Type} (ws : Workspace) (run : Except Stop α × Running) : Except EngineError α × Workspace :=
  (run.1.mapError .stopped,
    { store := run.2.store
      bindings := run.2.bindings
      expression := { ws.expression with sites := run.2.sites } })

theorem perform_eq_settle {α : Type} (ws : Workspace) (run : Exec α) :
    ws.perform run = ws.settle (run (.start ws.store ws.bindings ws.expression.sites)) := rfl

/-- The watched run that an execution makes. -/
def watch (ws : Workspace) (world : World) (strategy : Strategy) (limits : Limits) (root : Value) :
    Except Stop Value × Watched :=
  Watch.runProgram (setting world strategy limits root) ws.expression.program
    (.start (.start ws.store ws.bindings ws.expression.sites))

/-- An execution comes to what its watched run comes to. -/
theorem executeWith_eq_watched (ws : Workspace) (program : ws.expression.isSetter = false) (world : World)
    (strategy : Strategy) (limits : Limits) (root : Value) :
    ws.executeWith world strategy limits root =
      ws.settle ((ws.watch world strategy limits root).1, (ws.watch world strategy limits root).2.state) := by
  unfold executeWith
  rw [program, perform_eq_settle]
  exact congrArg ws.settle ((setting world strategy limits root).runProgram_eq_watched ws.expression.program
    (.start (.start ws.store ws.bindings ws.expression.sites)))

end Workspace

/-!
## Invariants of runs

What each step of some nodes keeps, and what does not depend on levels and blocks, holds before and behind every step
of a run: `Watch.follows_keeps`.
-/

/-- How deep a run is does not count, and neither does opening or closing a block. -/
structure Running.Invariant (I : Running → Prop) : Prop where
  depth : ∀ s n, I s → I { s with depth := n }
  push : ∀ s, I s → I { s with frames := s.frames.push }
  popped : ∀ s, I s → I { s with frames := s.frames.popped }

namespace Watch

/-- From a state where it holds the computation leaves a state where it holds, and so do its new steps, each of them
one of the nodes and names. -/
def Keeps (σ : Setting) (nodes : List Expr) (names : List String) (I : Running → Prop) {α : Type} (x : Watch α) : Prop :=
  ∀ t, I t.state → I (x t).2.state ∧ ∃ new, (x t).2.steps = new ++ t.steps
    ∧ ∀ m ∈ new, m.action.Within nodes names ∧ I m.before ∧ I (m.after σ)

variable {σ : Setting} {nodes : List Expr} {names : List String} {I : Running → Prop}

/-- What every step keeps is kept throughout. -/
theorem follows_keeps (invariant : Running.Invariant I)
    (step : ∀ a : Action, a.Within nodes names → ∀ s, I s → I (a.perform σ s).2) :
    Watch.Follows σ σ nodes names fun x _ => Keeps σ nodes names I x where
  root := rfl
  pure a t h := ⟨h, [], rfl, fun _ hm => by cases hm⟩
  -- the steps of the second part are put in front of those of the first, the latest first
  bind {α β x y f g} hx hf t h := by
    obtain ⟨kept, new, taken, good⟩ := hx t h
    rw [bind_eq_bindCont]
    cases (x t).1 with
    | error e => exact ⟨kept, new, taken, good⟩
    | ok a =>
      obtain ⟨kept', new', taken', good'⟩ := hf a (x t).2 kept
      refine ⟨kept', new' ++ new, ?_, fun m hm => (List.mem_append.1 hm).elim (good' m) (good m)⟩
      show (f a (x t).2).2.steps = _
      rw [taken', taken, List.append_assoc]
  step a within t h := by
    have kept := step a within t.state h
    refine ⟨kept, [⟨a, t.state⟩], rfl, fun m hm => ?_⟩
    cases List.mem_singleton.1 hm
    exact ⟨within, h, kept⟩
  deeper {α x y} hx t h := by
    unfold Watch.deeper Watch.nested
    split
    · exact ⟨h, [], rfl, fun _ hm => by cases hm⟩
    · obtain ⟨kept, new, taken, good⟩ :=
        hx { t with state := { t.state with depth := t.state.depth + 1 } } (invariant.depth _ _ h)
      exact ⟨invariant.depth _ _ kept, new, taken, good⟩
  inBlock {α x y} hx t h := by
    obtain ⟨kept, new, taken, good⟩ :=
      hx { t with state := { t.state with frames := t.state.frames.push } } (invariant.push _ h)
    exact ⟨invariant.popped _ kept, new, taken, good⟩
  turns same := same _

/-! ## Rows of statements -/

/-- Two rows are run one after the other. -/
theorem runAll_append (σ : Setting) (ss ss' : List Stmt) (last : Value) :
    runAll σ (ss ++ ss') last = (do
      let flow ← runAll σ ss last
      orReturn flow fun v => runAll σ ss' v) := by
  induction ss generalizing last with
  | nil =>
    rw [List.nil_append, runAll.eq_1, pure_bind]
    rfl
  | cons s ss ih =>
    rw [List.cons_append, runAll.eq_2, runAll.eq_2, bind_assoc]
    refine bind_congr fun flow => ?_
    cases flow with
    | normal v => exact ih v
    | returned v => rfl

/-- A run of a program leaves behind what its statements do. -/
theorem runProgram_snd (σ : Setting) (p : Program) (r : Watched) :
    (runProgram σ p r).2 = (runAll σ p.body .null r).2 := by
  let value (flow : Flow) : Watch Value := pure flow.value
  show (ExceptT.bindCont value (runAll σ p.body .null r).1 (runAll σ p.body .null r).2).2 = _
  cases (runAll σ p.body .null r).1 <;> rfl

end Watch

end HostExpr
