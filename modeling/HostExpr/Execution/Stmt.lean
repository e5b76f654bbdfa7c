import HostExpr.Execution.Expr

/-!
# Running statements

The effect of a typed statement, and how it finishes. Blocks open a frame for the names declared in them; each run
of the body of a loop is a block of its own. A `for` statement has a further frame around all of it.
-/

namespace HostExpr

open Typed

/-- How a statement finishes. -/
inductive Flow
  | normal (v : Value)
  | returned (v : Value)
deriving Inhabited

namespace Flow

/-- The value that a statement finishes with. -/
def value : Flow → Value
  | normal v | returned v => v

end Flow

namespace Exec

/-- Go on, unless a statement has returned. -/
def orReturn (flow : Flow) (next : Value → Exec Flow) : Exec Flow :=
  match flow with
  | .normal v => next v
  | .returned v => return .returned v

/-- Repeat a body while a condition holds, at most `turns` times. -/
def whileTrue (cond : Exec Bool) (body : Exec Flow) : Nat → Exec Flow
  | 0 => throw .outOfFuel
  | turns + 1 => do
    if ← cond then orReturn (← body) fun _ => whileTrue cond body turns
    else return .normal .null

/-- Run a body for each item. -/
def forEach (body : Value → Exec Flow) : List Value → Exec Flow
  | [] => return .normal .null
  | v :: vs => do orReturn (← body v) fun _ => forEach body vs

end Exec

namespace Setting

/-- How often the condition of one loop is looked at: under a limit, once more than bodies may run. -/
def turns (σ : Setting) : Nat :=
  match σ.limits.maxIterations with
  | some limit => limit + 1
  | none => σ.fuel

/-- The items that a loop runs over, as they are when it starts: items of a list or array, keys of a map,
characters of a text, nothing for null. -/
def itemsOf (σ : Setting) (v : Value) : Exec (List Value) :=
  match v with
  | .list h | .array h _ => .act (Act.items h)
  | .map h => .act do return (← Act.entries h).map Prod.fst
  | .str s => return s.toList.map fun c => .str c.toString
  | .null => return []
  | other => Exec.fail (.notIndexable (other.typeName σ.world.classes))

/-- The value of an expression that may be missing. -/
def value? (σ : Setting) : Option Expr → Exec Value
  | some e => σ.deeper (σ.value e)
  | none => return .null

/-- Whether a condition holds. -/
def condition (σ : Setting) (cond : Expr) : Exec Bool := do
  let v ← σ.deeper (σ.value cond)
  σ.truth v

/-- Whether a condition holds that may be missing. -/
def condition? (σ : Setting) : Option Expr → Exec Bool
  | some cond => σ.condition cond
  | none => return true

/-- A run of the body of a loop. -/
def loopBody (σ : Setting) (body : Exec Flow) : Exec Flow := do
  Exec.tick σ.limits
  Exec.inBlock body

/-- A run of the body of a `for` statement; the updates follow it unless it returns. -/
def forBody (σ : Setting) (update : List Expr) (body : Exec Flow) : Exec Flow := do
  let flow ← σ.loopBody body
  Exec.orReturn flow fun _ => do
    let _ ← σ.values update
    return .normal .null

/-- A run of the body of a loop over items. -/
def itemBody (σ : Setting) (name : String) (declared : Option Ty) (body : Exec Flow) (item : Value) :
    Exec Flow := do
  Exec.tick σ.limits
  -- an item that does not fit has been counted as a run already
  let item ← σ.convert? item declared
  Exec.inBlock do
    Exec.declare name item
    body

/-- Declare a name with its initial value. -/
def declareName (σ : Setting) (name : String) (declared : Option Ty) (init : Option Expr) (inBlock : Bool) :
    Exec Flow := do
  let v ← σ.value? init
  let v ← σ.convert? v declared
  if inBlock then Exec.declare name v else Exec.bind name v
  return .normal v

mutual

/-- Run a statement. -/
def run (σ : Setting) : Stmt → Exec Flow
  | .expr e => .normal <$> σ.value e
  | .declare _ name declared init inBlock => σ.declareName name declared init inBlock
  | .block _ body => Exec.inBlock (runAll σ body .null)
  | .branch _ cond thenBody elseBody => do
    if ← σ.condition cond then Exec.inBlock (runAll σ thenBody .null)
    else
      match elseBody with
      | some body => Exec.inBlock (runAll σ body .null)
      | none => return .normal .null
  | .whileLoop _ cond body =>
    Exec.whileTrue (σ.condition cond) (σ.loopBody (runAll σ body .null)) σ.turns
  | .forLoop _ init cond update body =>
    Exec.inBlock do
      match init with
      | some s => let _ ← σ.deeper (run σ s)
      | none => pure ()
      -- what `init` declares is still in the frame around the loop, unless `init` is a block of its own
      Exec.whileTrue (σ.condition? cond) (σ.forBody update (runAll σ body .null)) σ.turns
  | .forEach _ name declared items body => do
    let v ← σ.deeper (σ.value items)
    let items ← σ.itemsOf v
    Exec.forEach (σ.itemBody name declared (runAll σ body .null)) items
  | .returns _ e => .returned <$> σ.value? e
  | .nop _ => return .normal .null

/-- Run statements in a row, each one level deeper, until one returns. The value is that of the last one. -/
def runAll (σ : Setting) : List Stmt → Value → Exec Flow
  | [], last => return .normal last
  | s :: ss, _ => do
    let flow ← σ.deeper (run σ s)
    Exec.orReturn flow fun v => runAll σ ss v

end

end Setting

end HostExpr
