import HostExpr.Proofs.Call.Run
import HostExpr.World.Body

/-!
# Executions call bodies well

A compiled expression may be executed again and again, with any store, bindings, root, strategy and limits; what it
keeps between executions are its call sites. In each of these executions every body that is called is offered by its
receiver and gets the arguments that it declares: `calledWell_of_compile`.
-/

namespace HostExpr

open Typed

/-- What becomes of an expression through executions in a world, whatever they are given. -/
inductive Expression.Used (w : World) (x : Expression) : Expression → Prop
  | unused : Used w x x
  | executed {y : Expression} (earlier : Used w x y) (store : Store) (bindings : Table Value) (strategy : Strategy)
      (limits : Limits) (root : Value) :
      Used w x ((⟨store, bindings, y⟩ : Workspace).executeWith w strategy limits root).2.expression
  | stored {y : Expression} (earlier : Used w x y) (store : Store) (bindings : Table Value) (strategy : Strategy)
      (root v : Value) : Used w x ((⟨store, bindings, y⟩ : Workspace).executeSet w strategy root v).2.expression

/-! ## One execution -/

namespace Workspace

variable {α : Type} {w : World} {p : Program} {env : Environment} {ws : Workspace}

/-- An execution of a program calls bodies well: it keeps the program, its call sites as they should be, and what is
bound. What is new in the trace are good calls, and an input that it lacks is one that a body has reported, or one that
the program reads and that is not bound. -/
structure RunsWell (w : World) (p : Program) (ws : Workspace) (result : Except EngineError α × Workspace) : Prop where
  kept : result.2.expression.program = ws.expression.program
  sites : p.Binds w.classes result.2.expression.sites
  bindings : ∀ name, ws.bindings.has name → result.2.bindings.has name
  calls : ∃ new, result.2.store.trace = new ++ ws.store.trace
    ∧ (w.KeepsPromises → ∀ event ∈ new, w.ProperEvent event)
    ∧ ∀ name, result.1 = .error (.stopped (.runtime (.unboundInput name))) →
        Reported new name ∨ p.Reads name ∧ ¬ result.2.bindings.has name

/-- A request that is refused does nothing. -/
theorem RunsWell.refused (bound : p.Binds w.classes ws.expression.sites) (misuse : Misuse) :
    RunsWell w p ws (α := α) (.error (.misuse misuse), ws) where
  kept := rfl
  sites := bound
  bindings _ hn := hn
  calls := by
    refine ⟨[], rfl, fun _ event he => ?_, fun name he => ?_⟩
    · cases he
    · cases he

theorem runsWell_perform {run : Exec α} (h : Exec.Proper w p run fun _ => True)
    (bound : p.Binds w.classes ws.expression.sites) : RunsWell w p ws (ws.perform run) := by
  obtain ⟨new, advances, lacks, -⟩ := h (.start ws.store ws.bindings ws.expression.sites) bound
  refine ⟨rfl, advances.sites, advances.bindings, new, advances.trace, advances.proper, fun name he => lacks name ?_⟩
  have outcome : (run (.start ws.store ws.bindings ws.expression.sites)).1.mapError EngineError.stopped
      = .error (.stopped (.runtime (.unboundInput name))) := he
  generalize (run (.start ws.store ws.bindings ws.expression.sites)).1 = result at outcome ⊢
  cases result with
  | ok a => cases outcome
  | error stop => rw [EngineError.stopped.inj (Except.error.inj outcome)]

theorem runsWell_executeWith (ws : Workspace) (wm : ws.expression.program.WellMade w env)
    (bound : ws.expression.program.Binds w.classes ws.expression.sites) (strategy : Strategy) (limits : Limits)
    (root : Value) : RunsWell w ws.expression.program ws (ws.executeWith w strategy limits root) := by
  unfold executeWith
  split
  · exact .refused bound _
  · have ran : Exec.Proper (setting w strategy limits root).world ws.expression.program
        ((setting w strategy limits root).runProgram ws.expression.program) fun _ => True :=
      Setting.proper_runProgram wm
    exact runsWell_perform ran bound

theorem runsWell_executeSet (ws : Workspace) (wm : ws.expression.program.WellMade w env)
    (bound : ws.expression.program.Binds w.classes ws.expression.sites) (strategy : Strategy) (root v : Value) :
    RunsWell w ws.expression.program ws (ws.executeSet w strategy root v) := by
  unfold executeSet
  split
  · have ran : Exec.Proper (setting w strategy ws.expression.limits root).world ws.expression.program
        ((setting w strategy ws.expression.limits root).runSetter ws.expression.program v) fun _ => True :=
      Setting.proper_runSetter wm v
    exact runsWell_perform ran bound
  · exact .refused bound _

end Workspace

/-! ## All executions -/

/-- Executions keep the program, and its call sites as they should be. -/
theorem Expression.Used.kept {w : World} {env : Environment} {x y : Expression} (h : x.Used w y)
    (wm : x.program.WellMade w env) (bound : x.program.Binds w.classes x.sites) :
    y.program = x.program ∧ y.program.Binds w.classes y.sites := by
  induction h with
  | unused => exact ⟨rfl, bound⟩
  | @executed y _ store bindings strategy limits root ih =>
    have ran := Workspace.runsWell_executeWith ⟨store, bindings, y⟩ (ih.1 ▸ wm) ih.2 strategy limits root
    exact ⟨ran.kept.trans ih.1, ran.kept ▸ ran.sites⟩
  | @stored y _ store bindings strategy root v ih =>
    have ran := Workspace.runsWell_executeSet ⟨store, bindings, y⟩ (ih.1 ▸ wm) ih.2 strategy root v
    exact ⟨ran.kept.trans ih.1, ran.kept ▸ ran.sites⟩

/-- Fresh call sites are bound to nothing. -/
theorem Expression.binds_fresh (p : Program) (env : Environment) (isSetter : Bool) (limits : Limits) (cs : Classes) :
    p.Binds cs (fresh p env isSetter limits).sites := by
  intro i site found
  have listed : (p.sites env.strategy?)[i]? = some site := by
    rw [← found]
    exact List.getElem?_toArray.symm
  rw [Program.sites, List.getElem?_map] at listed
  obtain ⟨j, hj, rfl⟩ := Option.map_eq_some_iff.1 listed
  obtain ⟨hlt, rfl⟩ := List.getElem?_eq_some_iff.1 hj
  rw [List.getElem_range]
  exact .fresh cs _ _

namespace Engine

variable {e : Engine} {source : String} {isSetter : Bool} {config : Config} {x y : Expression}

/-- In whatever use, a compiled expression keeps its program, and its call sites as they should be. -/
theorem kept_of_used (h : e.compile source isSetter config = .ok x) (used : x.Used e.world y) :
    y.program = x.program ∧ y.program.Binds e.world.classes y.sites := by
  refine used.kept (wellMade_of_compile h) ?_
  obtain ⟨body, program, env, -, -, rfl⟩ := compile_ok h
  exact Expression.binds_fresh _ _ _ _ _

/-- A compiled expression, in whatever use, is run well. -/
theorem runsWell_of_used (h : e.compile source isSetter config = .ok x) (used : x.Used e.world y) (store : Store)
    (bindings : Table Value) (strategy : Strategy) :
    (∀ limits root, Workspace.RunsWell e.world x.program ⟨store, bindings, y⟩
      ((⟨store, bindings, y⟩ : Workspace).executeWith e.world strategy limits root))
    ∧ ∀ root v, Workspace.RunsWell e.world x.program ⟨store, bindings, y⟩
      ((⟨store, bindings, y⟩ : Workspace).executeSet e.world strategy root v) := by
  have wm := wellMade_of_compile h
  obtain ⟨same, bound⟩ := kept_of_used h used
  rw [← same] at wm ⊢
  refine ⟨fun limits root => ?_, fun root v => ?_⟩
  · exact Workspace.runsWell_executeWith ⟨store, bindings, y⟩ wm bound strategy limits root
  · exact Workspace.runsWell_executeSet ⟨store, bindings, y⟩ wm bound strategy root v

end Engine

/-- From the first store to the second bodies were called well, each time that one was called. -/
def World.CallsWell (w : World) (before after : Store) : Prop :=
  ∃ new, after.trace = new ++ before.trace
    ∧ ∀ code receiver args outcome, .ran code receiver args outcome ∈ new → w.CalledWell code receiver args

theorem Workspace.RunsWell.callsWell {α : Type} {w : World} {p : Program} {ws : Workspace}
    {result : Except EngineError α × Workspace} (h : RunsWell w p ws result) (promised : w.KeepsPromises) :
    w.CallsWell ws.store result.2.store := by
  obtain ⟨new, grown, good, -⟩ := h.calls
  exact ⟨new, grown, fun _ _ _ _ called => good promised _ called⟩

/-- **Bodies are called well.** If the host's conversions give what they promise, then in every execution of a compiled
program or setter, whatever was executed before and whatever store, bindings, root, strategy and limits it is given,
each body that is called is one that its receiver offers, and it gets as many arguments as it declares parameters, each
one satisfying the type of its parameter as the receiver shows it. -/
theorem Engine.calledWell_of_compile {e : Engine} {source : String} {isSetter : Bool} {config : Config}
    {x y : Expression} (h : e.compile source isSetter config = .ok x) (used : x.Used e.world y)
    (promised : e.world.KeepsPromises) (store : Store) (bindings : Table Value) (strategy : Strategy) (root : Value) :
    (∀ limits, e.world.CallsWell store
      ((⟨store, bindings, y⟩ : Workspace).executeWith e.world strategy limits root).2.store)
    ∧ ∀ v, e.world.CallsWell store
      ((⟨store, bindings, y⟩ : Workspace).executeSet e.world strategy root v).2.store := by
  obtain ⟨executed, stored⟩ := runsWell_of_used h used store bindings strategy
  exact ⟨fun limits => (executed limits root).callsWell promised, fun v => (stored root v).callsWell promised⟩

/-! ## A box that takes points -/

/-- The method of the boxes below: it takes a point. -/
def takePoint : Method where
  name := "take"
  params := [.raw (.host 0)]
  result := .raw (.builtin .integer)
  declaring := "Box"
  code := .host 0

/-- A class of points with one field, and a class of boxes that take points. -/
def pointsAndBoxes : Classes where
  defs := [{ ClassDef.bare "Point" none (some (.builtin .object)) with
      properties := [⟨"x", .raw (.builtin .object), .slot 0⟩]
      slotDefaults := [.null] },
    { ClassDef.bare "Box" none (some (.builtin .object)) with methods := [takePoint] }]

/-- A host that makes points of texts. -/
def pointHost : World :=
  .ofBodies pointsAndBoxes [] [.const (.int 7)]
    [(.host 0, (Wrapping.wrap "x").handler pointsAndBoxes (.host 0) [.builtin .string])]

/-- The engine of the host. -/
def pointEngine : Engine := ⟨pointHost, .builtin, [], .default⟩

/-- What a text is made is a point. -/
theorem keepsPromises_pointHost : pointHost.KeepsPromises := by
  intro c h listed v heap r made
  obtain ⟨rfl, rfl⟩ := Prod.mk.inj (List.mem_singleton.1 listed)
  cases made
  exact Classes.isSubclass_refl _ _

/-- A box gets a point where the program gives it a text, also after an earlier execution. -/
theorem calledWell_of_compile_pointHost :
    ∃ x y, pointEngine.compile "b.take('origin')" false .default = .ok x ∧ x.Used pointHost y
      ∧ let after := ((⟨.ofHeap .empty, [("b", .object 0 (.host 1))], y⟩ : Workspace).executeWith pointHost
          .specialized .default .null).2.store
        (after.trace.any fun
          | .ran code _ args _ => code = .host 0 && args = [.object 0 (.host 0)]
          | .converted .. => false)
        ∧ pointHost.CallsWell (.ofHeap .empty) after := by
  let start (x : Expression) : Workspace := ⟨.ofHeap .empty, [("b", .object 0 (.host 1))], x⟩
  let run (x : Expression) : Workspace := ((start x).executeWith pointHost .specialized .default .null).2
  have found : (pointEngine.compile "b.take('origin')" false .default).toOption.any fun x =>
      (run (run x).expression).store.trace.any fun
        | .ran code _ args _ => code = .host 0 && args = [.object 0 (.host 0)]
        | .converted .. => false := by
    decide +kernel
  obtain ⟨x, hx, called⟩ := exists_ok_of_any found
  have used : x.Used pointHost (run x).expression := .executed .unused _ _ _ _ _
  have well := Engine.calledWell_of_compile hx used keepsPromises_pointHost (.ofHeap .empty)
    [("b", .object 0 (.host 1))] .specialized .null
  exact ⟨x, (run x).expression, hx, used, called, well.1 .default⟩

end HostExpr
