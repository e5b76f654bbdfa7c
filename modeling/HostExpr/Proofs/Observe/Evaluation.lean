import HostExpr.Execution.Program
import HostExpr.Proofs.Typing.Height

/-!
# Observed runs

A second evaluator of typed programs. It does what the first one does, and it keeps which nodes of the program are
open, takes down behind every step how deep the run is, and counts the turns that loops come to and the runs of their
bodies. Every definition here stands beside the one of `Setting` that it observes.
-/

namespace HostExpr

open Typed

/-- Where a run is: the open nodes, the innermost first, and how deep it has gone. -/
structure Standing where
  nodes : List TreeNode
  depth : Nat

/-- What an observed run keeps. -/
structure Observed where
  state : Running
  /-- The nodes that are being evaluated, the innermost first. -/
  nodes : List TreeNode
  /-- Where the run was behind each of its steps, the latest first. -/
  standings : List Standing
  /-- How many turns loops have come to. -/
  reached : Nat
  /-- How many runs of the bodies of loops were started. -/
  started : Nat

namespace Observed

/-- The state before a run. -/
def start (s : Running) : Observed := ⟨s, [], [], 0, 0⟩

/-- Take down where the run is. -/
def noted (o : Observed) : Observed := { o with standings := ⟨o.nodes, o.state.depth⟩ :: o.standings }

end Observed

/-- A part of an observed run. -/
abbrev Observe (α : Type) := ExceptT Stop (StateM Observed) α

namespace Observe

variable {α : Type}

/-- A step of the run. -/
def step (x : Exec α) : Observe α := fun o =>
  let (outcome, s) := x o.state
  (outcome, { o with state := s }.noted)

theorem step_apply (x : Exec α) (o : Observed) :
    step x o = ((x o.state).1, { o with state := (x o.state).2 }.noted) := rfl

/-- Open a node, and close it whatever happens. -/
def inside (node : TreeNode) (body : Observe α) : Observe α := fun o =>
  let (outcome, o) := body { o with nodes := node :: o.nodes }.noted
  (outcome, { o with nodes := o.nodes.tail }.noted)

/-- Go one level deeper, if the limit allows it, and come back whatever happens. -/
def nested (limits : Limits) (body : Observe α) : Observe α := fun o =>
  if limits.maxDepth ≤ o.state.depth then (.error (.stackOverflow o.state.depth limits.maxDepth), o)
  else
    let (outcome, o) := body { o with state.depth := o.state.depth + 1 }.noted
    (outcome, { o with state.depth := o.state.depth - 1 }.noted)

/-- Run in a new block, and close it whatever happens. -/
def inBlock (body : Observe α) : Observe α := fun o =>
  let (outcome, o) := body { o with state.frames := o.state.frames.push }
  (outcome, { o with state.frames := o.state.frames.popped })

/-- A turn of a loop: it is counted, what the body needs is prepared, and the body is run in a block of its own. -/
def turn (limits : Limits) (prepare : Exec α) (body : α → Observe Flow) : Observe Flow := do
  modify fun o => { o with reached := o.reached + 1 }
  step (Exec.tick limits)
  let a ← step prepare
  modify fun o => { o with started := o.started + 1 }
  inBlock (body a)

/-- Go on, unless a statement has returned. -/
def orReturn (flow : Flow) (next : Value → Observe Flow) : Observe Flow :=
  match flow with
  | .normal v => next v
  | .returned v => return .returned v

/-- Repeat a body while a condition holds, at most `turns` times. -/
def whileTrue (cond : Observe Bool) (body : Observe Flow) : Nat → Observe Flow
  | 0 => throw .outOfFuel
  | turns + 1 => do
    if ← cond then orReturn (← body) fun _ => whileTrue cond body turns
    else return .normal .null

/-- Run a body for each item. -/
def forEach (body : Value → Observe Flow) : List Value → Observe Flow
  | [] => return .normal .null
  | v :: vs => do orReturn (← body v) fun _ => forEach body vs

variable (σ : Setting)

/-- Evaluate a node one level deeper. -/
def deeper (node : TreeNode) (body : Observe α) : Observe α := inside node (nested σ.limits body)

/-- Read a place that is no name. -/
def readPlace (readName : Observe Value) : Place → Observe Value
  | .name _ => readName
  | .property receiver name site => step (σ.getProperty receiver name site)
  | .index receiver position site => step (σ.getIndex receiver position site)

/-- What an assignment stores: the new value, or the old one combined with it. -/
def combine (op : AssignOp) (old operand : Observe Value) : Observe Value := do
  match op with
  | .plain => operand
  | .compound op => do
    let old ← old
    let operand ← operand
    step (σ.arith op old operand)

/-- A logical operator; the right operand is evaluated only if the left one leaves it open. -/
def logic (op : LogicOp) (left right : Observe Bool) : Observe Value := do
  let l ← left
  match op with
  | .and => if l then .bool <$> right else return .bool false
  | .or => if l then return .bool true else .bool <$> right

/-! ## Expressions -/

mutual

/-- The value of an expression. -/
def value : Expr → Observe Value
  | .constant _ v => return v.toValue
  | .declared _ name => step (.readName name)
  | .input _ name site => step (σ.readInput name site)
  | .this _ => return σ.root
  | .classRef _ c => return .cls c
  | .staticField _ c field => step (σ.staticField c field)
  | .property _ receiver name site => do
    let receiver ← deeper σ (.expr receiver) (value receiver)
    step (σ.getProperty receiver name site)
  | .methodCall _ receiver name args site => do
    let receiver ← deeper σ (.expr receiver) (value receiver)
    let args ← values args
    step (σ.callMethod receiver name args site)
  | .functionCall _ function args => do
    let args ← values args
    step (σ.callFunction function args)
  | .convert _ v target => do
    let v ← deeper σ (.expr v) (value v)
    let target ← deeper σ (.expr target) (value target)
    step (σ.convertToClass v target)
  | .index _ receiver position site => do
    let receiver ← deeper σ (.expr receiver) (value receiver)
    let position ← deeper σ (.expr position) (value position)
    step (σ.getIndex receiver position site)
  | .assign _ target op v stored => do
    let place ← inside (.expr target) (place target)
    let old := readPlace σ (deeper σ (.expr target) (value target)) place
    let new ← combine σ op old (deeper σ (.expr v) (value v))
    let new ← step (σ.convert? new stored)
    step (σ.writePlace new place)
    return new
  | .arith _ op left right => do
    let left ← deeper σ (.expr left) (value left)
    let right ← deeper σ (.expr right) (value right)
    step (σ.arith op left right)
  | .logic _ op left right =>
    logic op (do step (σ.truth (← deeper σ (.expr left) (value left))))
      (do step (σ.truth (← deeper σ (.expr right) (value right))))
  | .compare _ op left right => do
    let left ← deeper σ (.expr left) (value left)
    let right ← deeper σ (.expr right) (value right)
    step (.bool <$> .act (σ.world.compare op left right))
  | .unary _ op operand => do
    let operand ← deeper σ (.expr operand) (value operand)
    step (σ.unary op operand)
  | .step _ op target => do
    let place ← inside (.expr target) (place target)
    let old ← readPlace σ (deeper σ (.expr target) (value target)) place
    let new ← step (σ.counted op target.type old)
    step (σ.writePlace new place)
    return old
  | .cast _ type operand => do
    let operand ← deeper σ (.expr operand) (value operand)
    step (σ.convert operand type)
  | .conditional _ cond thenBranch elseBranch => do
    let cond ← deeper σ (.expr cond) (value cond)
    if ← step (σ.truth cond) then deeper σ (.expr thenBranch) (value thenBranch)
    else deeper σ (.expr elseBranch) (value elseBranch)
  | .construct _ c args chosen => do
    let args ← values args
    step (.act (σ.world.construct c args chosen))
  | .newArray _ item items => do
    let items ← values items
    step (σ.newArray item items)
  | .newSized _ item length => do
    let length ← deeper σ (.expr length) (value length)
    step (σ.newSized item length)
  | .inlineList _ items => do
    let items ← values items
    step (.act (Act.newList items))
  | .inlineMap _ entries => do
    let entries ← entryValues entries
    step (.act (Act.newMap entries))

/-- The place that an expression names as the target of an assignment. -/
def place : Expr → Observe Place
  | .property _ receiver name site => do
    let receiver ← deeper σ (.expr receiver) (value receiver)
    return .property receiver name site
  | .index _ receiver position site => do
    let receiver ← deeper σ (.expr receiver) (value receiver)
    let position ← deeper σ (.expr position) (value position)
    return .index receiver position site
  | target => return .name target

/-- The values of expressions in a row. -/
def values : List Expr → Observe (List Value)
  | [] => return []
  | e :: es => do
    let v ← deeper σ (.expr e) (value e)
    return v :: (← values es)

/-- The keys and values of the entries of a map. -/
def entryValues : List (Expr × Expr) → Observe Entries
  | [] => return []
  | (k, v) :: es => do
    let k ← deeper σ (.expr k) (value k)
    let v ← deeper σ (.expr v) (value v)
    return (k, v) :: (← entryValues es)

end

/-! ## Statements -/

/-- The value of an expression that may be missing. -/
def value? : Option Expr → Observe Value
  | some e => deeper σ (.expr e) (value σ e)
  | none => return .null

/-- Whether a condition holds. -/
def condition (cond : Expr) : Observe Bool := do
  let v ← deeper σ (.expr cond) (value σ cond)
  step (σ.truth v)

/-- Whether a condition holds that may be missing. -/
def condition? : Option Expr → Observe Bool
  | some cond => condition σ cond
  | none => return true

/-- A run of the body of a loop. -/
def loopBody (body : Observe Flow) : Observe Flow := turn σ.limits (pure ()) fun _ => body

/-- A run of the body of a `for` statement; the updates follow it unless it returns. -/
def forBody (update : List Expr) (body : Observe Flow) : Observe Flow := do
  let flow ← loopBody σ body
  orReturn flow fun _ => do
    let _ ← values σ update
    return .normal .null

/-- A run of the body of a loop over items. -/
def itemBody (name : String) (declared : Option Ty) (body : Observe Flow) (item : Value) : Observe Flow :=
  turn σ.limits (σ.convert? item declared) fun item => do
    step (Exec.declare name item)
    body

/-- Declare a name with its initial value. -/
def declareName (name : String) (declared : Option Ty) (init : Option Expr) (inBlock : Bool) : Observe Flow := do
  let v ← value? σ init
  let v ← step (σ.convert? v declared)
  if inBlock then step (Exec.declare name v) else step (Exec.bind name v)
  return .normal v

mutual

/-- Run a statement. -/
def run : Stmt → Observe Flow
  | .expr e => .normal <$> value σ e
  | .declare _ name declared init inBlock => declareName σ name declared init inBlock
  | .block _ body => inBlock (runAll body .null)
  | .branch _ cond thenBody elseBody => do
    if ← condition σ cond then inBlock (runAll thenBody .null)
    else
      match elseBody with
      | some body => inBlock (runAll body .null)
      | none => return .normal .null
  | .whileLoop _ cond body => whileTrue (condition σ cond) (loopBody σ (runAll body .null)) σ.turns
  | .forLoop _ init cond update body =>
    inBlock do
      match init with
      | some s => let _ ← deeper σ (.stmt s) (run s)
      | none => pure ()
      whileTrue (condition? σ cond) (forBody σ update (runAll body .null)) σ.turns
  | .forEach _ name declared items body => do
    let v ← deeper σ (.expr items) (value σ items)
    let items ← step (σ.itemsOf v)
    forEach (itemBody σ name declared (runAll body .null)) items
  | .returns _ e => .returned <$> value? σ e
  | .nop _ => return .normal .null

/-- Run statements in a row, each one level deeper, until one returns. The value is that of the last one. -/
def runAll : List Stmt → Value → Observe Flow
  | [], last => return .normal last
  | s :: ss, _ => do
    let flow ← deeper σ (.stmt s) (run s)
    orReturn flow fun v => runAll ss v

end

/-! ## Programs -/

/-- Run a program; its value is that of the last statement, or of the `return` that ended it. -/
def runProgram (p : Program) : Observe Value := do
  let flow ← runAll σ p.body .null
  return flow.value

/-- Store a value through a setter. -/
def runSetter (p : Program) (v : Value) : Observe Unit := do
  match p.body with
  | .expr target :: _ =>
    let v ← step (σ.fitEgress p v)
    let place ← inside (.stmt (.expr target)) (place σ target)
    step (σ.writePlace v place)
  | _ => return ()

end Observe

end HostExpr
