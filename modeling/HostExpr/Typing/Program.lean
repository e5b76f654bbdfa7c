import HostExpr.Text.Basic
import HostExpr.Typing.Stmt

/-!
# Typing programs

The typed form of a whole program, or of a setter: a single expression through which a value will be stored.
-/

namespace HostExpr

open Typed

namespace Context

/-- The typed form of a program. Its value is that of the last statement or of any `return`. -/
def program (ctx : Context) (body : List Syntax.Stmt) : Analysis Program := do
  let body ← ctx.stmts body
  let s ← get
  let egress := s.returns.foldr (fun t acc => ctx.classes.unify acc t) (lastType body)
  return ⟨body, egress, s.nextSite⟩

/-- The typed form of a setter. It evaluates to the type that it stores. -/
def setter (ctx : Context) (body : List Syntax.Stmt) : Analysis Program := do
  match body with
  | [.expr target] =>
    let (target, stored) ← ctx.assignedTarget target (ctx.expr target none) .object
    return ⟨[.expr target], stored.getD .object, (← get).nextSite⟩
  | _ =>
    Analysis.fail (.notAssignable (String.ofList (trimmed ctx.source))) ⟨0, byteLength ctx.source⟩

/-- Analyze a program or setter from an environment; gives the environment as the analysis leaves it. -/
def analyze (ctx : Context) (setter : Bool) (body : List Syntax.Stmt) (env : Environment) :
    Except CompileError Program × Environment :=
  let analysis := if setter then ctx.setter body else ctx.program body
  let (outcome, s) := analysis (.ofEnvironment env)
  (outcome, s.env)

end Context

end HostExpr
