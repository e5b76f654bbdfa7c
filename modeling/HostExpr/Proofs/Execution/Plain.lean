import HostExpr.Execution.Program

/-!
# Plain steps

The steps that a run does with values that are there already go no deeper and run no loop, and they fail only as the
program fails: no limit stops them.
-/

namespace HostExpr

open Typed

namespace Exec

variable {α β : Type}

/-- What came of a step that left the counts alone, and that no limit stopped. -/
structure PlainResult (s : Running) (r : Except Stop α × Running) : Prop where
  depth : r.2.depth = s.depth
  iterations : r.2.iterations = s.iterations
  stops : ∀ e, r.1 = .error e → ∃ cause, e = .runtime cause

namespace PlainResult

theorem ok {s s' : Running} (a : α) (depth : s'.depth = s.depth) (iterations : s'.iterations = s.iterations) :
    PlainResult s (.ok a, s') := ⟨depth, iterations, nofun⟩

theorem error {s s' : Running} (cause : RuntimeError) (depth : s'.depth = s.depth)
    (iterations : s'.iterations = s.iterations) :
    PlainResult s ((.error (.runtime cause), s') : Except Stop α × Running) :=
  ⟨depth, iterations, fun _ h => ⟨cause, (Except.error.inj h).symm⟩⟩

/-- What came of another step from there. -/
theorem trans {s s' : Running} {r : Except Stop α × Running} (h : PlainResult s' r) (depth : s'.depth = s.depth)
    (iterations : s'.iterations = s.iterations) : PlainResult s r :=
  ⟨h.depth.trans depth, h.iterations.trans iterations, h.stops⟩

end PlainResult

/-- The step leaves the counts alone, and no limit stops it. -/
def Plain (x : Exec α) : Prop := ∀ s, PlainResult s (x s)

namespace Plain

theorem pure (a : α) : Plain (Pure.pure a) := fun _ => .ok a rfl rfl

theorem fail (e : RuntimeError) : Plain (Exec.fail e : Exec α) := fun _ => .error e rfl rfl

/-- One step after the other. -/
theorem bind {x : Exec α} {f : α → Exec β} (hx : Plain x) (hf : ∀ a, Plain (f a)) : Plain (x >>= f) := by
  intro s
  rw [bind_eq_bindCont]
  have first := hx s
  cases hr : (x s).1 with
  | ok a => exact (hf a _).trans first.depth first.iterations
  | error e =>
    obtain ⟨cause, rfl⟩ := first.stops e hr
    exact .error cause first.depth first.iterations

theorem map {x : Exec α} (f : α → β) (hx : Plain x) : Plain (f <$> x) := hx.bind fun a => .pure (f a)

theorem ite {c : Prop} [Decidable c] {x y : Exec α} (hx : Plain x) (hy : Plain y) : Plain (if c then x else y) := by
  split
  · exact hx
  · exact hy

theorem act (a : Act α) : Plain (Exec.act a) := by
  intro s
  unfold Exec.act
  split
  · exact .ok _ rfl rfl
  · exact .error _ rfl rfl

theorem ofExcept (r : Except RuntimeError α) : Plain (Exec.ofExcept r) := by
  cases r with
  | ok a => exact .pure a
  | error e => exact .fail e

theorem atSite (site : Nat) (through : Site → Act α × Site) (otherwise : Act α) :
    Plain (Exec.atSite site through otherwise) := by
  intro s
  unfold Exec.atSite
  split
  · exact (act _ _).trans rfl rfl
  · exact act _ _

theorem readName (name : String) : Plain (Exec.readName name) := fun _ => .ok _ rfl rfl

theorem bindName (name : String) (v : Value) : Plain (Exec.bind name v) := fun _ => .ok _ rfl rfl

/-- A change of the state that leaves the counts alone. -/
theorem modify {f : Running → Running} (depth : ∀ s, (f s).depth = s.depth)
    (iterations : ∀ s, (f s).iterations = s.iterations) : Plain (modifyThe Running f) :=
  fun s => .ok _ (depth s) (iterations s)

theorem writeName (name : String) (v : Value) : Plain (Exec.writeName name v) := by
  refine modify (fun s => ?_) fun s => ?_
  all_goals split <;> rfl

theorem declare (name : String) (v : Value) : Plain (Exec.declare name v) := by
  refine modify (fun s => ?_) fun s => ?_
  all_goals split <;> rfl

end Plain

end Exec

/-! ## The steps of a run -/

namespace Setting

open Exec

variable (σ : Setting)

theorem plain_readInput (name : String) (site : Nat) : Plain (σ.readInput name site) := by
  intro s
  unfold readInput
  split
  · exact .ok _ rfl rfl
  · split
    · exact .error _ rfl rfl
    · have read : PlainResult s (σ.getProperty σ.root name site s) := Plain.atSite _ _ _ s
      split
      · rename_i failed
        rw [failed] at read
        split
        · exact .error _ read.depth read.iterations
        · exact read
      · exact read

theorem plain_writeInput (name : String) (site : Nat) (v : Value) : Plain (σ.writeInput name site v) := by
  intro s
  unfold writeInput
  split
  · exact Plain.bindName name v s
  · have write : PlainResult s (σ.setProperty σ.root name site v s) := Plain.atSite _ _ _ s
    split
    · rename_i failed
      rw [failed] at write
      split
      · exact (Plain.bindName name v _).trans write.depth write.iterations
      · exact write
    · exact write

theorem plain_writePlace (v : Value) (place : Place) : Plain (σ.writePlace v place) := by
  cases place with
  | property receiver name site => exact .atSite _ _ _
  | index receiver position site => exact .atSite _ _ _
  | name target =>
    show Plain (σ.writeTarget target v)
    unfold writeTarget
    split
    · exact .writeName _ _
    · exact σ.plain_writeInput _ _ _
    · exact .fail _

theorem plain_convert? (v : Value) (t : Option Ty) : Plain (σ.convert? v t) := by
  cases t with
  | none => exact .pure _
  | some t => exact .act _

theorem plain_counted (op : StepOp) (type : Ty) (old : Value) : Plain (σ.counted op type old) := by
  unfold counted
  exact .bind (.act _) fun new => σ.plain_convert? new _

theorem plain_staticField (c : ClassRef) (field : String) : Plain (σ.staticField c field) := by
  unfold staticField
  split
  · exact .pure _
  · exact .fail _

theorem plain_callFunction (function : Nat) (args : List Value) : Plain (σ.callFunction function args) := by
  unfold callFunction
  split
  · exact .act _
  · exact .pure _

theorem plain_convertToClass (v target : Value) : Plain (σ.convertToClass v target) := by
  unfold convertToClass
  split
  · exact .act _
  · exact .fail _

theorem plain_newSized (item : Ty) (length : Value) : Plain (σ.newSized item length) := by
  unfold newSized
  refine .bind (.act _) fun n => ?_
  split
  · exact .ite (.act _) (.fail _)
  · exact .fail _

theorem plain_unary (op : UnaryOp) (operand : Value) : Plain (σ.unary op operand) := by
  cases op with
  | neg => exact .ofExcept _
  | not => exact .bind (.act _) fun _ => .pure _

theorem plain_itemsOf (v : Value) : Plain (σ.itemsOf v) := by
  unfold itemsOf
  split
  · exact .act _
  · exact .act _
  · exact .act _
  · exact .pure _
  · exact .pure _
  · exact .fail _

theorem plain_fitEgress (p : Program) (v : Value) : Plain (σ.fitEgress p v) := .ite (.pure _) (.act _)

end Setting

end HostExpr
