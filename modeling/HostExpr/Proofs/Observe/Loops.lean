import Mathlib.Control.Monad.Basic
import HostExpr.Proofs.Engine.Compile
import HostExpr.Proofs.Observe.Erasure
import HostExpr.Proofs.Scope.Agreement

/-!
# Loops are bounded

Under a limit all loops of a run together, nested ones included, start no more runs of their bodies than the limit
allows, and the run is cut off just if a loop comes to one turn more. `Observed.Counted` is what the counts are while a
run goes on, and `Stop.Halted` what they are where it stops; `Observed.Advances` says that a part of a run leads from
one to the other. A loop under a limit always has a turn left to look at its condition: `Advances.whileTrue`.
-/

namespace HostExpr

open Typed

/-- The counts while a run goes on: each turn that was reached was counted, is within the limit and led to a run of the
body. -/
structure Observed.Counted (limit : Nat) (o : Observed) : Prop where
  iterations : o.state.iterations = o.reached
  started : o.started = o.reached
  within : o.reached ≤ limit

/-- The state in which one more turn of a loop has been reached and counted. -/
def Observed.turned (o : Observed) : Observed :=
  { o with reached := o.reached + 1, state := { o.state with iterations := o.state.iterations + 1 } }.noted

/-- The counts where a run has stopped. -/
def Stop.Halted (limit reached started : Nat) : Stop → Prop
  | iterationLimit k => k = limit ∧ reached = limit + 1 ∧ started = limit
  | outOfFuel => False
  | runtime _ | stackOverflow .. => reached ≤ limit ∧ started ≤ reached ∧ reached ≤ started + 1

namespace Stop.Halted

variable {limit reached started : Nat} {stop : Stop} (h : stop.Halted limit reached started)
include h

theorem bounds : started ≤ limit ∧ started ≤ reached ∧ reached ≤ started + 1 := by
  cases stop with
  | outOfFuel => exact h.elim
  | iterationLimit k =>
    obtain ⟨-, reached, started⟩ := h
    omega
  | runtime cause => exact ⟨Nat.le_trans h.2.1 h.1, h.2⟩
  | stackOverflow depth k => exact ⟨Nat.le_trans h.2.1 h.1, h.2⟩

/-- Only the limit stops a run beyond it. -/
theorem eq_iterationLimit (beyond : reached = limit + 1) : stop = .iterationLimit limit := by
  have past : ¬ reached ≤ limit := beyond ▸ Nat.not_succ_le_self limit
  cases stop with
  | outOfFuel => exact h.elim
  | iterationLimit k => rw [h.1]
  | runtime cause => exact absurd h.1 past
  | stackOverflow depth k => exact absurd h.1 past

end Stop.Halted

/-- What has come of a part of a run, `before` which so many turns had been reached: the run goes on or has stopped, and
no turn was taken back. -/
structure Advances {α : Type} (limit before : Nat) (r : Except Stop α × Observed) : Prop where
  reached : before ≤ r.2.reached
  ok : ∀ a, r.1 = .ok a → r.2.Counted limit
  error : ∀ stop, r.1 = .error stop → stop.Halted limit r.2.reached r.2.started

namespace Advances

variable {α β : Type} {limit before : Nat}

theorem of_ok {o : Observed} (a : α) (h : o.Counted limit) (reached : before ≤ o.reached) :
    Advances limit before ((.ok a, o) : Except Stop α × Observed) :=
  ⟨reached, fun _ _ => h, nofun⟩

theorem of_error {o : Observed} {stop : Stop} (h : stop.Halted limit o.reached o.started)
    (reached : before ≤ o.reached) : Advances limit before ((.error stop, o) : Except Stop α × Observed) :=
  ⟨reached, nofun, fun _ same => Except.error.inj same ▸ h⟩

/-- Only the counts matter. -/
theorem of_same {r r' : Except Stop α × Observed} (h : Advances limit before r) (outcome : r'.1 = r.1)
    (iterations : r'.2.state.iterations = r.2.state.iterations) (reached : r'.2.reached = r.2.reached)
    (started : r'.2.started = r.2.started) : Advances limit before r' where
  reached := reached ▸ h.reached
  ok a ha := by
    have counted := h.ok a (outcome ▸ ha)
    exact ⟨iterations.trans (counted.iterations.trans reached.symm), started.trans (counted.started.trans reached.symm),
      reached ▸ counted.within⟩
  error stop hs := by
    rw [reached, started]
    exact h.error stop (outcome ▸ hs)

/-- One part after the other. -/
theorem bind {x : Observe α} {f : α → Observe β} {o : Observed} (hx : Advances limit before (x o))
    (hf : ∀ a, (x o).1 = .ok a → Advances limit (x o).2.reached (f a (x o).2)) :
    Advances limit before ((x >>= f) o) := by
  rw [bind_eq_bindCont]
  cases hr : (x o).1 with
  | ok a =>
    have rest := hf a hr
    exact ⟨Nat.le_trans hx.reached rest.reached, rest.ok, rest.error⟩
  | error stop => exact .of_error (hx.error stop hr) hx.reached

section

variable {outcome : Except Stop α} {o : Observed} (h : Advances limit before (outcome, o))
include h

theorem ne_outOfFuel : outcome ≠ .error .outOfFuel := fun same => h.error .outOfFuel same

/-- No run of a body is started beyond the limit or without a turn, and no turn but the last one is without a run. -/
theorem bounds : o.started ≤ limit ∧ o.started ≤ o.reached ∧ o.reached ≤ o.started + 1 := by
  cases outcome with
  | ok a =>
    have counted : o.Counted limit := h.ok a rfl
    rw [counted.started]
    exact ⟨counted.within, Nat.le_refl _, Nat.le_succ _⟩
  | error stop => exact (h.error stop rfl).bounds

/-- A run is cut off just where it has come to a turn more than the limit allows. -/
theorem eq_iterationLimit_iff (k : Nat) :
    outcome = .error (.iterationLimit k) ↔ k = limit ∧ o.reached = limit + 1 := by
  constructor
  · intro cut
    obtain ⟨same, reached, -⟩ := h.error _ cut
    exact ⟨same, reached⟩
  · rintro ⟨rfl, beyond⟩
    cases outcome with
    | ok a =>
      have counted : o.Counted k := h.ok a rfl
      exact absurd counted.within (beyond ▸ Nat.not_succ_le_self k)
    | error stop => rw [(h.error stop rfl).eq_iterationLimit beyond]

end

end Advances

/-! ## What a run is put together from -/

namespace Observe

variable {α β : Type} {limit : Nat}

/-- Where the counts are as they are while a run goes on, the computation advances. -/
def Advancing (limit : Nat) (x : Observe α) : Prop :=
  ∀ o : Observed, o.Counted limit → Advances limit o.reached (x o)

/-- The computation advances by a turn at least, unless the run stops. -/
structure Turning (limit : Nat) (x : Observe α) : Prop where
  advances : Advancing limit x
  turns : ∀ o : Observed, o.Counted limit → ∀ a, (x o).1 = .ok a → o.reached < (x o).2.reached

namespace Advancing

theorem pure (a : α) : Advancing limit (Pure.pure a) := fun _ counted => .of_ok a counted (Nat.le_refl _)

theorem bind {x : Observe α} {f : α → Observe β} (hx : Advancing limit x) (hf : ∀ a, Advancing limit (f a)) :
    Advancing limit (x >>= f) :=
  fun o counted => (hx o counted).bind fun a ha => hf a _ ((hx o counted).ok a ha)

/-- A failure leaves the counts as they are. -/
theorem halted {stop : Stop} {o : Observed} (counted : o.Counted limit) (uncut : ∀ k, stop ≠ .iterationLimit k)
    (ends : stop ≠ .outOfFuel) : stop.Halted limit o.reached o.started := by
  cases stop with
  | iterationLimit k => exact absurd rfl (uncut k)
  | outOfFuel => exact absurd rfl ends
  | _ => exact ⟨counted.within, Nat.le_of_eq counted.started, counted.started ▸ Nat.le_succ _⟩

theorem step {y : Exec α} (plain : y.Plain) : Advancing limit (Observe.step y) := by
  intro o counted
  have result := plain o.state
  have kept : ({ o with state := (y o.state).2 }.noted).Counted limit :=
    ⟨result.iterations.trans counted.iterations, counted.started, counted.within⟩
  refine ⟨Nat.le_refl _, fun _ _ => kept, fun stop hs => ?_⟩
  obtain ⟨cause, rfl⟩ := result.stops stop hs
  exact halted kept nofun nofun

theorem inBlock {x : Observe α} (hx : Advancing limit x) : Advancing limit (Observe.inBlock x) := by
  intro o counted
  have body := hx { o with state.frames := o.state.frames.push } ⟨counted.iterations, counted.started, counted.within⟩
  exact body.of_same rfl rfl rfl rfl

theorem inside {x : Observe α} (hx : Advancing limit x) (node : TreeNode) :
    Advancing limit (Observe.inside node x) := by
  intro o counted
  have body := hx { o with nodes := node :: o.nodes }.noted ⟨counted.iterations, counted.started, counted.within⟩
  exact body.of_same rfl rfl rfl rfl

theorem nested {x : Observe α} (hx : Advancing limit x) (limits : Limits) :
    Advancing limit (Observe.nested limits x) := by
  intro o counted
  unfold Observe.nested
  split
  · exact .of_error (halted counted nofun nofun) (Nat.le_refl _)
  · have body := hx { o with state.depth := o.state.depth + 1 }.noted
      ⟨counted.iterations, counted.started, counted.within⟩
    exact body.of_same rfl rfl rfl rfl

end Advancing

/-- A turn is counted before the body is run. It is one too many just if the limit says so, and if the item of a loop
does not fit, the body is not run. -/
theorem advances_turn {limits : Limits} (limited : limits.maxIterations = some limit) {prepare : Exec α}
    (plain : prepare.Plain) {f : α → Observe Flow} (hf : ∀ a, Advancing limit (f a)) {o : Observed}
    (counted : o.Counted limit) : Advances limit (o.reached + 1) (Observe.turn limits prepare f o) := by
  have turned : Observe.turn limits prepare f o = ExceptT.bindCont
      (fun _ => do
        let a ← step prepare
        modify fun o => { o with started := o.started + 1 }
        Observe.inBlock (f a))
      (limits.counted (o.state.iterations + 1)) o.turned := by
    unfold Observe.turn
    rw [bind_eq_bindCont]
    show ((step (Exec.tick limits) >>= fun _ => _) : Observe Flow) _ = _
    rw [bind_eq_bindCont, step_apply, Exec.tick_eq]
    rfl
  rw [turned, Limits.counted, limited, counted.iterations]
  dsimp only
  -- the limit is checked when a turn is counted: beyond it the turn is not started
  by_cases beyond : limit < o.reached + 1
  · rw [if_pos beyond]
    have full : o.reached = limit := Nat.le_antisymm counted.within (Nat.le_of_lt_succ beyond)
    exact .of_error ⟨rfl, congrArg (· + 1) full, counted.started.trans full⟩ (Nat.le_refl _)
  · rw [if_neg beyond]
    have within : o.reached + 1 ≤ limit := Nat.le_of_not_lt beyond
    have iterations : (prepare o.turned.state).2.iterations = o.reached + 1 :=
      (plain o.turned.state).iterations.trans (congrArg (· + 1) counted.iterations)
    show Advances limit (o.reached + 1) (((step prepare >>= fun a => _) : Observe Flow) o.turned)
    rw [bind_eq_bindCont, step_apply]
    cases hr : (prepare o.turned.state).1 with
    | error stop =>
      obtain ⟨cause, rfl⟩ := (plain o.turned.state).stops stop hr
      have halted : (Stop.runtime cause).Halted limit (o.reached + 1) o.started :=
        ⟨within, Nat.le_succ_of_le (Nat.le_of_eq counted.started), Nat.succ_le_succ (Nat.le_of_eq counted.started.symm)⟩
      exact .of_error halted (Nat.le_refl _)
    | ok a =>
      let ready : Observed :=
        { { o.turned with state := (prepare o.turned.state).2 }.noted with started := o.started + 1 }
      have counted' : ready.Counted limit := ⟨iterations, congrArg (· + 1) counted.started, within⟩
      exact (hf a).inBlock ready counted'

theorem Turning.turn {limits : Limits} (limited : limits.maxIterations = some limit) {prepare : Exec α}
    (plain : prepare.Plain) {f : α → Observe Flow} (hf : ∀ a, Advancing limit (f a)) :
    Turning limit (Observe.turn limits prepare f) where
  advances o counted := by
    have h := advances_turn limited plain hf counted
    exact ⟨Nat.le_of_succ_le h.reached, h.ok, h.error⟩
  turns o counted _ _ := (advances_turn limited plain hf counted).reached

theorem Turning.bind {x : Observe α} {f : α → Observe β} (hx : Turning limit x) (hf : ∀ a, Advancing limit (f a)) :
    Turning limit (x >>= f) := by
  refine ⟨hx.advances.bind hf, fun o counted b hb => ?_⟩
  rw [bind_eq_bindCont] at hb ⊢
  cases hr : (x o).1 with
  | error stop =>
    rw [hr] at hb
    cases hb
  | ok a =>
    exact Nat.lt_of_lt_of_le (hx.turns o counted a hr) (hf a _ ((hx.advances o counted).ok a hr)).reached

/-- A loop that may look at its condition once more than there are turns left does not run out of turns. -/
theorem Advancing.whileTrue {c : Observe Bool} {x : Observe Flow} (hc : Advancing limit c) (hx : Turning limit x)
    (turns : Nat) (o : Observed) (counted : o.Counted limit) (left : limit < o.reached + turns) :
    Advances limit o.reached (Observe.whileTrue c x turns o) := by
  -- every turn is counted, so that the limit is reached before the turns run out
  induction turns generalizing o with
  | zero => exact absurd counted.within (Nat.not_le_of_lt left)
  | succ turns ih =>
    unfold Observe.whileTrue
    refine (hc o counted).bind fun holds hr => ?_
    have looked := (hc o counted).ok holds hr
    have reached := (hc o counted).reached
    cases holds with
    | false => exact .of_ok _ looked (Nat.le_refl _)
    | true =>
      refine (hx.advances _ looked).bind fun flow hf => ?_
      have turned := hx.turns _ looked flow hf
      have counted' := (hx.advances _ looked).ok flow hf
      cases flow with
      | returned v => exact .of_ok _ counted' (Nat.le_refl _)
      | normal v => exact ih _ counted' (by omega)

/-- Under a limit, everything that a run is put together from advances. -/
theorem follows_advancing (σ : Setting) (limited : σ.limits.maxIterations = some limit) :
    Follows σ (fun _ _ x _ => Advancing limit x) (fun _ x _ => Turning limit x) where
  pure a := .pure a
  bind h h' := h.bind h'
  step plain := .step plain
  inside _ h := h.inside _
  deeper _ h := (h.nested σ.limits).inside _
  inBlock h := h.inBlock
  turn plain h := .turn limited plain h
  turn_bind h h' := h.bind h'
  of_turn h := h.advances
  whileTrue hc hx o counted := by
    refine hc.whileTrue hx _ o counted ?_
    unfold Setting.turns
    rw [limited]
    dsimp only
    omega

end Observe

/-- **Loops are bounded.** Run a program under a limit of `n` turns of loops. The run ends by itself, and it starts at
most `n` runs of bodies of loops, all loops together. It is cut off for the limit just if some loop comes to the turn
`n + 1`: its condition holds once more, or there is one more item. A turn is there before the item of a loop is made to
fit, so a turn without a run of the body can only be the last one. -/
theorem Setting.loops_bounded (world : World) (strategy : Strategy) (maxDepth n fuel : Nat) (root : Value)
    (p : Program) (store : Store) (bindings : Table Value) (sites : Array Site) :
    let σ : Setting := ⟨world, strategy, ⟨maxDepth, some n⟩, fuel, root⟩
    let (outcome, o) := Observe.runProgram σ p (.start (.start store bindings sites))
    σ.runProgram p (.start store bindings sites) = (outcome, o.state)
      ∧ outcome ≠ .error .outOfFuel
      ∧ o.started ≤ n
      ∧ (∀ k, outcome = .error (.iterationLimit k) ↔ k = n ∧ o.reached = n + 1)
      ∧ o.started ≤ o.reached ∧ o.reached ≤ o.started + 1
      ∧ ∀ v, outcome = .ok v → o.reached = o.started := by
  intro σ
  have start : (Observed.start (.start store bindings sites)).Counted n := ⟨rfl, rfl, Nat.zero_le n⟩
  -- no turn is counted at the start, and every step keeps the count of turns and of bodies together
  have advances := (Observe.follows_advancing σ rfl).runProgram p _ start
  have same := Observe.runProgram_apply σ p (.start (.start store bindings sites))
  generalize Observe.runProgram σ p (.start (.start store bindings sites)) = r at advances same
  obtain ⟨outcome, o⟩ := r
  obtain ⟨within, first, last⟩ := advances.bounds
  exact ⟨same, advances.ne_outOfFuel, within, advances.eq_iterationLimit_iff, first, last,
    fun v hv => (advances.ok v hv).started.symm⟩

/-! ## An item that does not fit -/

/-- A program with a loop over an item that does not fit the type that is declared for it. -/
def unfitItem : String := "for (Integer x : ['a']) \x7b y = x; \x7d 1"

/-- Under the limit 0 the program is cut off, although no run of the body would be started without a limit: the item is
made to fit before, and the program fails there. -/
theorem cutOff_unfitItem :
    ∃ x, Engine.bare.compile unfitItem false .default = .ok x
      ∧ let s := Running.start (.ofHeap .empty) [] x.sites
        let limited := Setting.runProgram { Setting.bare with limits := ⟨1000, some 0⟩ } x.program s
        let unlimited := Observe.runProgram .bare x.program (.start s)
        limited.1 = .error (.iterationLimit 0)
        ∧ unlimited.1 = .error (.runtime (.conversion ⟨"String", "Integer", some "'a' is not a valid Integer"⟩))
        ∧ unlimited.2.started = 0 := by
  have found : (Engine.bare.compile unfitItem false .default).toOption.any fun x : Expression =>
      let s := Running.start (.ofHeap .empty) [] x.sites
      let limited := Setting.runProgram { Setting.bare with limits := ⟨1000, some 0⟩ } x.program s
      let unlimited := Observe.runProgram .bare x.program (.start s)
      decide (limited.1 = .error (.iterationLimit 0))
        && decide (unlimited.1
          = .error (.runtime (.conversion ⟨"String", "Integer", some "'a' is not a valid Integer"⟩)))
        && decide (unlimited.2.started = 0) := by
    decide +kernel
  obtain ⟨x, hx, checked⟩ := exists_ok_of_any found
  obtain ⟨stops, started⟩ := Bool.and_eq_true_iff.1 checked
  obtain ⟨cut, failed⟩ := Bool.and_eq_true_iff.1 stops
  exact ⟨x, hx, of_decide_eq_true cut, of_decide_eq_true failed, of_decide_eq_true started⟩

end HostExpr
