import HostExpr.Execution.Stmt

/-!
# Running programs

A program is run from the first statement, with no block open and all counts at zero.
-/

namespace HostExpr

open Typed

/-- How often a loop may run that has no limit: more often than can be waited for. -/
def unlimitedTurns : Nat := Nat.pow 2 62

/-- The state before a run. -/
def Running.start (store : Store) (bindings : Table Value) (sites : Array Site) : Running where
  store := store
  frames := .empty
  bindings := bindings
  sites := sites
  depth := 0
  iterations := 0

namespace Setting

/-- Run a program; its value is that of the last statement, or of the `return` that ended it. -/
def runProgram (σ : Setting) (p : Program) : Exec Value := do
  let flow ← σ.runAll p.body .null
  return flow.value

/-- Make a value fit what a setter stores. -/
def fitEgress (σ : Setting) (p : Program) (v : Value) : Exec Value :=
  if p.egress.isDynamic then return v else σ.convert v p.egress

/-- Store a value through a setter. -/
def runSetter (σ : Setting) (p : Program) (v : Value) : Exec Unit := do
  match p.body with
  | .expr target :: _ =>
    let v ← σ.fitEgress p v
    let place ← σ.place target
    σ.writePlace v place
  | _ => return ()

end Setting

end HostExpr
