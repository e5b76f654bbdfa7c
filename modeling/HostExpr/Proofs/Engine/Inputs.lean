import HostExpr.Proofs.Engine.Calls
import HostExpr.Proofs.Scope.Agreement

/-!
# What the caller has to bind

The environment of a compiled program lists the inputs that the caller has to supply. A name that is declared after it
was read is not among them: the declaration takes it out of the inputs. So a program whose inputs are all bound can
lack a value only for such a name, as long as nothing has bound it: `lacks_of_unboundInput`.
-/

namespace HostExpr

open Typed

/-- After an execution a name lacks a value: some body has reported that, or the program reads the name as an input,
has it as a variable, and has not bound it. -/
def Expression.Lacks (x : Expression) (before after : Workspace) (name : String) : Prop :=
  (∃ new, after.store.trace = new ++ before.store.trace ∧ Reported new name)
    ∨ x.program.Reads name ∧ x.env.vars.has name ∧ ¬ after.bindings.has name

theorem Workspace.RunsWell.lacks {α : Type} {w : World} {x : Expression} {ws : Workspace}
    {result : Except EngineError α × Workspace} (h : RunsWell w x.program ws result)
    (wm : x.program.WellMade w x.env) (bound : ∀ name, x.env.inputs.has name → ws.bindings.has name)
    {name : String} (failed : result.1 = .error (.stopped (.runtime (.unboundInput name)))) :
    x.Lacks ws result.2 name := by
  obtain ⟨new, grown, -, lacks⟩ := h.calls
  rcases lacks name failed with reported | ⟨read, unbound⟩
  · exact .inl ⟨new, grown, reported⟩
  · refine .inr ⟨read, ?_, unbound⟩
    obtain ⟨info, site, node⟩ := read
    have known : x.env.Knows name := wm.fits _ node
    rcases known with input | declared
    · exact absurd (h.bindings name (bound name input)) unbound
    · exact declared

/-- **Inputs suffice but for names that are declared later.** Let each input that a compiled expression reports be
bound. If an execution, of whatever root and after whatever others, fails for an input without a value, then a body has
reported that, or the name is one that the program reads as an input and declares as a variable, and its declaration has
not been executed: nothing has bound it. -/
theorem Engine.lacks_of_unboundInput {e : Engine} {source : String} {isSetter : Bool} {config : Config}
    {x y : Expression} (h : e.compile source isSetter config = .ok x) (used : x.Used e.world y) (store : Store)
    {bindings : Table Value} (bound : ∀ name, x.env.inputs.has name → bindings.has name) (strategy : Strategy)
    (root : Value) (name : String) :
    let before : Workspace := ⟨store, bindings, y⟩
    (∀ limits, let (outcome, after) := before.executeWith e.world strategy limits root
      outcome = .error (.stopped (.runtime (.unboundInput name))) → x.Lacks before after name)
    ∧ ∀ v, let (outcome, after) := before.executeSet e.world strategy root v
      outcome = .error (.stopped (.runtime (.unboundInput name))) → x.Lacks before after name := by
  have wm := wellMade_of_compile h
  obtain ⟨executed, stored⟩ := runsWell_of_used h used store bindings strategy
  exact ⟨fun limits failed => (executed limits root).lacks wm bound failed,
    fun v failed => (stored root v).lacks wm bound failed⟩

/-! ## A name that is read before it is declared -/

/-- Whether an execution fails for a name without a value. -/
def failsFor (name : String) : Except EngineError Value → Bool
  | .error (.stopped (.runtime (.unboundInput n))) => n = name
  | _ => false

theorem eq_of_failsFor {name : String} {result : Except EngineError Value} (h : failsFor name result) :
    result = .error (.stopped (.runtime (.unboundInput name))) := by
  unfold failsFor at h
  split at h
  · rw [of_decide_eq_true h]
  · cases h

/-- A program that reads an input, and a name that it declares behind that. -/
def readsEarly : String := "a + y; int y = 2; y"

/-- With the input bound, the program lacks a value for the other name. -/
theorem lacks_of_unboundInput_readsEarly :
    ∃ x, Engine.bare.compile readsEarly false .default = .ok x
      ∧ x.env.inputs = [("a", .object)]
      ∧ let before : Workspace := ⟨.ofHeap .empty, [("a", .int 1)], x⟩
        let (outcome, after) := before.executeWith .bare .specialized .default .null
        outcome = .error (.stopped (.runtime (.unboundInput "y"))) ∧ x.Lacks before after "y" := by
  let before (x : Expression) : Workspace := ⟨.ofHeap .empty, [("a", .int 1)], x⟩
  have found : (Engine.bare.compile readsEarly false .default).toOption.any fun x =>
      x.env.inputs = [("a", .object)] && failsFor "y" ((before x).executeWith .bare .specialized .default .null).1 := by
    decide +kernel
  obtain ⟨x, hx, checked⟩ := exists_ok_of_any found
  obtain ⟨inputs, failed⟩ := Bool.and_eq_true_iff.1 checked
  have inputs := of_decide_eq_true inputs
  have bound (name : String) (hn : x.env.inputs.has name) : Table.has [("a", Value.int 1)] name := by
    rw [inputs, Table.has, Table.get?_cons] at hn
    rw [Table.has, Table.get?_cons]
    split at hn
    · rename_i same
      rw [if_pos same]
      rfl
    · cases hn
  have lacks := (Engine.lacks_of_unboundInput hx .unused (.ofHeap .empty) bound .specialized .null "y").1 .default
  exact ⟨x, hx, inputs, eq_of_failsFor failed, lacks (eq_of_failsFor failed)⟩

/-- All inputs of a program may be bound, in that it has none, and an execution still lack one. -/
theorem unboundInput_of_declaredLater :
    ∃ x, Engine.bare.compile "y; int y = 2; y" false .default = .ok x
      ∧ (∀ name, x.env.inputs.has name → Table.has ([] : Table Value) name)
      ∧ ((⟨.ofHeap .empty, [], x⟩ : Workspace).executeWith .bare .specialized .default .null).1
        = .error (.stopped (.runtime (.unboundInput "y"))) := by
  have found : (Engine.bare.compile "y; int y = 2; y" false .default).toOption.any fun x =>
      x.env.inputs.isEmpty
        && failsFor "y" ((⟨.ofHeap .empty, [], x⟩ : Workspace).executeWith .bare .specialized .default .null).1 := by
    decide +kernel
  obtain ⟨x, hx, checked⟩ := exists_ok_of_any found
  obtain ⟨none, failed⟩ := Bool.and_eq_true_iff.1 checked
  refine ⟨x, hx, fun name hn => ?_, eq_of_failsFor failed⟩
  rw [List.isEmpty_iff.1 none] at hn
  cases hn

end HostExpr
