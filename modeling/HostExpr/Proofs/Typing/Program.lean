import HostExpr.Proofs.Engine.Compile
import HostExpr.Proofs.Typing.Nodes

/-!
# Well-made programs

In a compiled program no call site accesses two members, and each part fits the environment that the compilation ends
with: `wellMade_of_compile`. This is what a run relies on.
-/

namespace HostExpr

open Typed

/-- What a run relies on: no call site accesses two members, and each part of the program fits the environment. -/
structure Typed.Program.WellMade (p : Program) (w : World) (env : Environment) : Prop where
  single : ∀ e ∈ Stmt.partsAll p.body, ∀ e' ∈ Stmt.partsAll p.body,
    ∀ x ∈ e.access?, ∀ y ∈ e'.access?, x.1 = y.1 → x.2 = y.2
  fits : ∀ e ∈ Stmt.partsAll p.body, w.Fits env e

/-- A call site accesses the member that a part of the program accesses through it. -/
theorem Typed.Program.WellMade.memberAt_eq {p : Program} {w : World} {env : Environment} (h : p.WellMade w env)
    {e : Expr} (he : e ∈ Stmt.partsAll p.body) {site : Nat} {m : Member} (ha : e.access? = some (site, m)) :
    p.memberAt site = m :=
  Program.memberAt_eq h.single he ha

namespace Context

open Analysis

variable {ctx : Context}

theorem made_program (body : List Syntax.Stmt) (a : AnalysisState) :
    Yields (ctx.program body) a fun p b => ctx.Made a (Stmt.partsAll p.body) b := by
  unfold program
  refine .bind fun ss b made => .get (.pure ?_)
  exact made_stmts body a made

theorem made_setter (body : List Syntax.Stmt) (a : AnalysisState) :
    Yields (ctx.setter body) a fun p b => ctx.Made a (Stmt.partsAll p.body) b := by
  unfold setter
  split
  · rename_i target
    refine .bind fun r b made => ?_
    obtain ⟨typed, stored⟩ := r
    have node := made_assignedTarget target .object (made_expr target none) made
    exact .get (.pure (Made.one (s := .expr typed) node))
  · exact .fail _ _

/-- What an analysis makes is well made. -/
theorem wellMade_of_analyze {isSetter : Bool} {body : List Syntax.Stmt} {env env' : Environment} {p : Program}
    (h : ctx.analyze isSetter body env = (.ok p, env')) : p.WellMade ctx.world env' := by
  have made : Yields (if isSetter then ctx.setter body else ctx.program body) (.ofEnvironment env)
      fun p b => ctx.Made (.ofEnvironment env) (Stmt.partsAll p.body) b := by
    cases isSetter with
    | true => exact made_setter body _
    | false => exact made_program body _
  unfold analyze at h
  obtain ⟨outcome, rfl⟩ := Prod.mk.inj h
  have parts := made (Prod.ext outcome rfl)
  exact ⟨parts.single, parts.fits⟩

end Context

/-- A compiled program is well made. -/
theorem Engine.wellMade_of_compile {e : Engine} {source : String} {isSetter : Bool} {config : Config} {x : Expression}
    (h : e.compile source isSetter config = .ok x) : x.program.WellMade e.world x.env := by
  obtain ⟨body, program, env, -, analyzed, rfl⟩ := compile_ok h
  exact Context.wellMade_of_analyze analyzed

end HostExpr
