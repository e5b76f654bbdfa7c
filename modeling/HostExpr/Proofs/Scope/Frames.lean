import HostExpr.Execution.Program
import HostExpr.Proofs.Execution.Steps

/-!
# Steps that leave the frames alone

All that a program asks of its world, of values and of call sites leaves the frames and the caller's bindings as they
are: only blocks, declarations and names change the frames, and only names and inputs the bindings.
-/

namespace HostExpr

/-- A part of the state that the world and values have nothing to do with. -/
class Running.Beside {γ : Type} (part : Running → γ) : Prop where
  store : ∀ s store, part { s with store := store } = part s
  iterations : ∀ s n, part { s with iterations := n } = part s

/-- A part that call sites have nothing to do with either. -/
class Running.Aside {γ : Type} (part : Running → γ) : Prop extends Running.Beside part where
  sites : ∀ s sites, part { s with sites := sites } = part s

instance : Running.Beside Running.frames := ⟨fun _ _ => rfl, fun _ _ => rfl⟩

instance : Running.Beside Running.bindings := ⟨fun _ _ => rfl, fun _ _ => rfl⟩

instance : Running.Beside Running.sites := ⟨fun _ _ => rfl, fun _ _ => rfl⟩

instance : Running.Aside Running.frames := ⟨fun _ _ => rfl⟩

instance : Running.Aside Running.bindings := ⟨fun _ _ => rfl⟩

namespace Exec

open Running

variable {α β γ : Type} {part : Running → γ}

/-- The step leaves a part of the state as it is, whatever comes of it. -/
def Keeps (part : Running → γ) (step : Exec α) : Prop := ∀ s, part (step s).2 = part s

/-- The step leaves the frames as they are, whatever comes of it. -/
abbrev KeepsFrames (step : Exec α) : Prop := Keeps Running.frames step

namespace Keeps

theorem pure (a : α) : Keeps part (Pure.pure a) := fun _ => rfl

theorem fail (e : RuntimeError) : Keeps part (Exec.fail e : Exec α) := fun _ => rfl

/-- One step after the other. -/
theorem bind {x : Exec α} {f : α → Exec β} (hx : Keeps part x) (hf : ∀ a, Keeps part (f a)) :
    Keeps part (x >>= f) := by
  intro s
  have first := hx s
  show part (ExceptT.bindCont f (x s).1 (x s).2).2 = part s
  rw [← first]
  cases (x s).1 with
  | ok a => exact hf a _
  | error e => rfl

theorem ofExcept (r : Except RuntimeError α) : Keeps part (Exec.ofExcept r) := by
  cases r with
  | ok a => exact .pure a
  | error e => exact .fail e

/-- A computation on the store. -/
theorem act [Beside part] (a : Act α) : Keeps part (Exec.act a) := by
  intro s
  unfold Exec.act
  split <;> exact Beside.store s _

/-- A use of a call site. -/
theorem atSite [Aside part] (site : Nat) (through : Site → Act α × Site) (otherwise : Act α) :
    Keeps part (Exec.atSite site through otherwise) := by
  intro s
  unfold Exec.atSite
  split
  · exact (act _ _).trans (Aside.sites s _)
  · exact act _ _

theorem tick [Beside part] (limits : Limits) : Keeps part (Exec.tick limits) := by
  intro s
  rw [tick_eq]
  exact Beside.iterations s _

end Keeps

theorem KeepsFrames.bindName (name : String) (v : Value) : KeepsFrames (Exec.bind name v) := fun _ => rfl

end Exec

namespace Setting

open Exec Running

section

variable {γ : Type} {part : Running → γ} (σ : Setting)

theorem keeps_staticField (c : ClassRef) (field : String) : Keeps part (σ.staticField c field) := by
  unfold staticField
  split
  · exact .pure _
  · exact .fail _

section

variable [Beside part]

theorem keeps_callFunction (function : Nat) (args : List Value) :
    Keeps part (σ.callFunction function args) := by
  unfold callFunction
  split
  · exact .act _
  · exact .pure _

theorem keeps_convertToClass (v target : Value) : Keeps part (σ.convertToClass v target) := by
  unfold convertToClass
  split
  · exact .act _
  · exact .fail _

theorem keeps_convert? (v : Value) (t : Option Ty) : Keeps part (σ.convert? v t) := by
  unfold convert?
  split
  · exact .act _
  · exact .pure _

theorem keeps_newSized (item : Ty) (length : Value) : Keeps part (σ.newSized item length) := by
  unfold newSized
  refine .bind (.act _) fun n => ?_
  split
  · split
    · exact .act _
    · exact .fail _
  · exact .fail _

theorem keeps_unary (op : UnaryOp) (operand : Value) : Keeps part (σ.unary op operand) := by
  unfold unary
  split
  · exact .ofExcept _
  · exact .bind (.act _) fun _ => .pure _

theorem keeps_counted (op : StepOp) (type : Ty) (old : Value) : Keeps part (σ.counted op type old) := by
  unfold counted
  exact .bind (.act _) fun new => σ.keeps_convert? new _

theorem keeps_itemsOf (v : Value) : Keeps part (σ.itemsOf v) := by
  unfold itemsOf
  split
  · exact .act _
  · exact .act _
  · exact .act _
  · exact .pure _
  · exact .pure _
  · exact .fail _

end

/-! ## Inputs -/

theorem keeps_readInput [Aside part] (name : String) (site : Nat) : Keeps part (σ.readInput name site) := by
  intro s
  have read : part (σ.getProperty σ.root name site s).2 = part s := Keeps.atSite _ _ _ s
  unfold readInput
  split
  · rfl
  · split
    · rfl
    · split
      · rename_i e s' he
        rw [he] at read
        exact read
      · exact read

end

variable (σ : Setting)

theorem keepsFrames_writeInput (name : String) (site : Nat) (v : Value) :
    KeepsFrames (σ.writeInput name site v) := by
  intro s
  have written : (σ.setProperty σ.root name site v s).2.frames = s.frames := Keeps.atSite _ _ _ s
  unfold writeInput
  split
  · rfl
  · split
    · rename_i e s' he
      rw [he] at written
      split
      · exact written
      · exact written
    · exact written

/-- Storing into a place that is no declared name. -/
theorem keepsFrames_writePlace (v : Value) {place : Place}
    (h : ∀ info name, place ≠ .name (.declared info name)) : KeepsFrames (σ.writePlace v place) := by
  cases place with
  | name target =>
    cases target with
    | declared info name => exact absurd rfl (h info name)
    | input info name site => exact σ.keepsFrames_writeInput name site v
    | _ => exact .fail _
  | property receiver name site => exact .atSite _ _ _
  | index receiver position site => exact .atSite _ _ _

end Setting

end HostExpr
