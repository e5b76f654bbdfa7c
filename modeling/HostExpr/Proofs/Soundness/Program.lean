import HostExpr.Proofs.Engine.Calls
import HostExpr.Proofs.Soundness.Stmt
import HostExpr.Proofs.Typing.Ruled

/-!
# The type of a program is kept

The egress of a compiled program is the best common type of its last statement and of all that it returns: what a run
comes to suits it. Top-level statements are run one after the other, and so is the induction: each declaration changes
what is known of names from there on.
-/

namespace HostExpr

open Typed Classes

theorem Flow.Suits.mono {cs : Classes} {t : Ty} {returns returns' : List Ty} {P : Running → Prop} {flow : Flow}
    {s : Running} (h : flow.Suits cs t returns P s) (within : returns ⊆ returns') : flow.Suits cs t returns' P s := by
  cases flow with
  | normal v => exact h
  | returned v =>
    obtain ⟨u, hu, suits⟩ := h
    exact ⟨u, within hu, suits⟩

/-! ## Known names -/

theorem Environment.Grows.knows {env env' : Environment} (h : env.Grows env') {name : String} (known : env.Knows name) :
    env'.Knows name := by
  rcases known with known | known
  · obtain ⟨t, ht⟩ := Option.isSome_iff_exists.1 known
    exact .inl (by rw [Table.has, h.inputs ht]; rfl)
  · obtain ⟨t, ht⟩ := Option.isSome_iff_exists.1 known
    exact .inr (by rw [Table.has, h.vars ht]; rfl)

namespace Setting

variable {σ : Setting} {ctx : Context} {config : Config} {o : Outset σ.world}

end Setting

/-- Something that a program is compiled and executed on. -/
structure Trial where
  engine : Engine
  source : String
  config : Config
  heap : Heap
  bindings : Table Value
  root : Value

/-- Each input holds what satisfies the type that is recorded for it, something is known of what the program comes to, and
the execution comes to what does not satisfy it. -/
def Trial.strays (trial : Trial) : Bool :=
  match trial.engine.compile trial.source false trial.config with
  | .error _ => false
  | .ok x =>
    let world := trial.engine.world
    let start : Workspace := ⟨.ofHeap trial.heap, trial.bindings, x⟩
    match (start.executeWith world .specialized .default trial.root).1 with
    | .error _ => false
    | .ok v =>
      x.env.inputs.all (fun input => (trial.bindings.get? input.1).any fun w => world.classes.satisfies w input.2)
        && !x.program.egress.isDynamic && !world.classes.satisfies v x.program.egress

end HostExpr
