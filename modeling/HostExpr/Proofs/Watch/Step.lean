import HostExpr.Execution.Program

/-!
# The steps of a run

What a running program does one after the other, apart from the order in which it does it: reads and writes of names,
accesses, calls, conversions and operators on values that are there already. Each step is performed against a setting
and gives a result. A watched run is a run that takes down its steps, each with the state that it starts from.
-/

namespace HostExpr

/-- A step of a run, with the values that it is given. -/
inductive Action
  | readName (name : String)
  | readInput (name : String) (site : Nat)
  | staticField (c : ClassRef) (field : String)
  | getProperty (receiver : Value) (name : String) (site : Nat)
  | callMethod (receiver : Value) (name : String) (args : List Value) (site : Nat)
  | callFunction (function : Nat) (args : List Value)
  | convertToClass (v target : Value)
  | getIndex (receiver position : Value) (site : Nat)
  /-- Make a value fit what an assignment stores, and store it. -/
  | assign (v : Value) (stored : Option Ty) (place : Place)
  /-- Count a value up or down, and store it. -/
  | count (op : StepOp) (type : Ty) (old : Value) (place : Place)
  /-- Count a variable up or down; it is read first. -/
  | countName (op : StepOp) (type : Ty) (name : String)
  | arith (op : ArithOp) (left right : Value)
  | compare (op : CompareOp) (left right : Value)
  | unary (op : UnaryOp) (operand : Value)
  | truth (v : Value)
  /-- Make a value fit a type if one is given. -/
  | fit (v : Value) (t : Option Ty)
  | construct (c : ClassRef) (args : List Value) (chosen : Option Nat)
  | newArray (item : Ty) (items : List Value)
  | newSized (item : Ty) (length : Value)
  | newList (items : List Value)
  | newMap (entries : Entries)
  /-- Make a value fit what a declaration declares, and declare the name with it. -/
  | declare (name : String) (declared : Option Ty) (v : Value) (inBlock : Bool)
  /-- Name an item that a loop has come to. -/
  | nameItem (name : String) (v : Value)
  | itemsOf (v : Value)
  | tick
  /-- Give up a loop that does not end. -/
  | giveUp

namespace Action

/-- What a step gives. -/
@[reducible]
def Result : Action → Type
  | truth _ => Bool
  | nameItem .. | tick => Unit
  | itemsOf _ => List Value
  | declare .. | giveUp => Flow
  | _ => Value

/-- Perform a step. -/
def perform (σ : Setting) : (a : Action) → Exec a.Result
  | readName name => .readName name
  | readInput name site => σ.readInput name site
  | staticField c field => σ.staticField c field
  | getProperty receiver name site => σ.getProperty receiver name site
  | callMethod receiver name args site => σ.callMethod receiver name args site
  | callFunction function args => σ.callFunction function args
  | convertToClass v target => σ.convertToClass v target
  | getIndex receiver position site => σ.getIndex receiver position site
  | assign v stored place => do
    let new ← σ.convert? v stored
    σ.writePlace new place
    return new
  | count op type old place => do
    let new ← σ.counted op type old
    σ.writePlace new place
    return old
  | countName op type name => do
    let old ← σ.deeper (.readName name)
    let new ← σ.counted op type old
    Exec.writeName name new
    return old
  | arith op left right => σ.arith op left right
  | compare op left right => .bool <$> .act (σ.world.compare op left right)
  | unary op operand => σ.unary op operand
  | truth v => σ.truth v
  | fit v t => σ.convert? v t
  | construct c args chosen => .act (σ.world.construct c args chosen)
  | newArray item items => σ.newArray item items
  | newSized item length => σ.newSized item length
  | newList items => .act (Act.newList items)
  | newMap entries => .act (Act.newMap entries)
  | declare name declared v inBlock => do
    let v ← σ.convert? v declared
    if inBlock then Exec.declare name v else Exec.bind name v
    return .normal v
  | nameItem name v => .declare name v
  | itemsOf v => σ.itemsOf v
  | tick => .tick σ.limits
  | giveUp => throw .outOfFuel

end Action

/-- A step that was made, with the state that it started from. -/
structure Moment where
  action : Action
  before : Running

/-- The state behind a step. -/
def Moment.after (m : Moment) (σ : Setting) : Running := (m.action.perform σ m.before).2

/-- A running program and the steps that it has made, the latest first. -/
structure Watched where
  state : Running
  steps : List Moment

/-- The state before a run, with no step made. -/
def Watched.start (s : Running) : Watched := ⟨s, []⟩

/-- A computation whose steps are taken down. -/
abbrev Watch (α : Type) := ExceptT Stop (StateM Watched) α

namespace Watch

/-- Perform a step and take it down. -/
def step (σ : Setting) (a : Action) : Watch a.Result := fun t =>
  let (outcome, s) := a.perform σ t.state
  (outcome, ⟨s, ⟨a, t.state⟩ :: t.steps⟩)

/-- Go one level deeper, if the limit allows it, and come back whatever happens. -/
def nested {α : Type} (limits : Limits) (body : Watch α) : Watch α := fun t =>
  if limits.maxDepth ≤ t.state.depth then (.error (.stackOverflow t.state.depth limits.maxDepth), t)
  else
    let (outcome, t) := body { t with state := { t.state with depth := t.state.depth + 1 } }
    (outcome, { t with state := { t.state with depth := t.state.depth - 1 } })

/-- Run in a new block, and close it whatever happens. -/
def inBlock {α : Type} (body : Watch α) : Watch α := fun t =>
  let (outcome, t) := body { t with state := { t.state with frames := t.state.frames.push } }
  (outcome, { t with state := { t.state with frames := t.state.frames.popped } })

/-- Go on, unless a statement has returned. -/
def orReturn (flow : Flow) (next : Value → Watch Flow) : Watch Flow :=
  match flow with
  | .normal v => next v
  | .returned v => return .returned v

/-- Repeat a body while a condition holds, at most `turns` times. -/
def whileTrue (σ : Setting) (cond : Watch Bool) (body : Watch Flow) : Nat → Watch Flow
  | 0 => step σ .giveUp
  | turns + 1 => do
    if ← cond then orReturn (← body) fun _ => whileTrue σ cond body turns
    else return .normal .null

/-- Run a body for each item. -/
def forEach (body : Value → Watch Flow) : List Value → Watch Flow
  | [] => return .normal .null
  | v :: vs => do orReturn (← body v) fun _ => forEach body vs

end Watch

end HostExpr
