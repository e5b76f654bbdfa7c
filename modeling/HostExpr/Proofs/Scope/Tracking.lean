import HostExpr.Execution.Program
import HostExpr.Proofs.Scope.Mapped

/-!
# Runs that know their declarations

A second evaluator of typed programs. It does what the first one does, and it keeps for every entry of a frame by
which execution of which declaration the entry was made. It is told the scopes that analysis has open at each place,
and notes of every access to a name in scope what the access finds.
-/

namespace HostExpr

open Typed

/-! ## The state of a tracked run -/

/-- An execution of a declaration: of all of them, the first has the turn 1. -/
structure Execution where
  path : Path
  turn : Nat
deriving DecidableEq, Repr

/-- An access to a name that is in scope. -/
structure NameAccess where
  /-- What analysis resolves the name to. -/
  declared : Declared
  /-- What made the entry that the access finds in the open frames. -/
  found : Option Execution
  /-- How often the declaration has been executed so far. -/
  turns : Nat
  /-- The caller's bindings before and after the access. -/
  before : Table Value
  after : Table Value

/-- The access finds what the latest execution of the declaration has made, and leaves the bindings alone. If the
frame of the declaration is closed, what it finds is of another declaration. -/
def NameAccess.Sound (a : NameAccess) : Prop :=
  if a.declared.kept then a.found = some ⟨a.declared.path, a.turns⟩ ∧ a.after = a.before
  else ∀ e, a.found = some e → e.path ≠ a.declared.path

/-- What a tracked run keeps beside the state of a run: its frames with the origins of the entries, how often each
declaration was executed, and the accesses, the latest first. -/
structure Marks where
  frames : Scopes (Value × Execution)
  turns : Path → Nat
  accesses : List NameAccess

/-- The state of a tracked run; the frames of `base` are not used. -/
structure Tracked where
  base : Running
  marks : Marks

namespace Tracked

/-- The state without the marks. -/
def erase (t : Tracked) : Running := { t.base with frames := t.marks.frames.map Prod.fst }

/-- Note an access to a name in scope; `found` is what made the entry, and `before` the bindings before it. -/
def noting (t : Tracked) (declared : Option Declared) (found : Option Execution) (before : Table Value) :
    Tracked :=
  match declared with
  | none => t
  | some d =>
    let access : NameAccess := ⟨d, found, t.marks.turns d.path, before, t.base.bindings⟩
    { t with marks.accesses := access :: t.marks.accesses }

/-- The state before a run. -/
def start (store : Store) (bindings : Table Value) (sites : Array Site) : Tracked where
  base := .start store bindings sites
  marks := ⟨.empty, fun _ => 0, []⟩

end Tracked

/-- A step of a tracked run. -/
abbrev Tracking (α : Type) := ExceptT Stop (StateM Tracked) α

namespace Tracking

/-- A step that does not touch the frames. -/
def lift {α : Type} (step : Exec α) : Tracking α := fun t =>
  let (outcome, s) := step t.erase
  (outcome, { t with base := s })

/-- Go one level deeper, if the limit allows it, and come back whatever happens. -/
def nested {α : Type} (limits : Limits) (body : Tracking α) : Tracking α := fun t =>
  if limits.maxDepth ≤ t.base.depth then (.error (.stackOverflow t.base.depth limits.maxDepth), t)
  else
    let (outcome, t) := body { t with base.depth := t.base.depth + 1 }
    (outcome, { t with base.depth := t.base.depth - 1 })

/-- Run in a new block, and close it whatever happens. -/
def inBlock {α : Type} (body : Tracking α) : Tracking α := fun t =>
  let (outcome, t) := body { t with marks.frames := t.marks.frames.push }
  (outcome, { t with marks.frames := t.marks.frames.popped })

/-- Read a name. -/
def readName (Γ : Scopes Declared) (name : String) : Tracking Value := fun t =>
  let entry := t.marks.frames.lookup name
  let v := ((entry.map Prod.fst).or (t.base.bindings.get? name)).getD .null
  (.ok v, t.noting (Γ.lookup name) (entry.map Prod.snd) t.base.bindings)

/-- Store into a name. An entry of a frame keeps its origin. -/
def writeName (Γ : Scopes Declared) (name : String) (v : Value) : Tracking Unit := fun t =>
  let entry := t.marks.frames.lookup name
  let written :=
    match entry.bind fun (_, origin) => t.marks.frames.assign? name (v, origin) with
    | some frames => { t with marks.frames := frames }
    | none => { t with base.bindings := t.base.bindings.put name v }
  (.ok (), written.noting (Γ.lookup name) (entry.map Prod.snd) t.base.bindings)

/-- Execute the declaration at a path. -/
def declare (p : Path) (name : String) (v : Value) : Tracking Unit := fun t =>
  let turn := t.marks.turns p + 1
  let t := { t with marks.turns := fun q => if q = p then turn else t.marks.turns q }
  if t.marks.frames.isEmpty then (.ok (), { t with base.bindings := t.base.bindings.put name v })
  else (.ok (), { t with marks.frames := t.marks.frames.declaring name (v, ⟨p, turn⟩) })

/-! ## Expressions -/

section

variable (σ : Setting) (Γ : Scopes Declared)

/-- Read a place that is no name. -/
def readPlace (readName : Tracking Value) : Place → Tracking Value
  | .name _ => readName
  | .property receiver name site => lift (σ.getProperty receiver name site)
  | .index receiver position site => lift (σ.getIndex receiver position site)

/-- Store into a place. -/
def writePlace (v : Value) : Place → Tracking Unit
  | .name (.declared _ name) => writeName Γ name v
  | place => lift (σ.writePlace v place)

/-- What an assignment stores: the new value, or the old one combined with it. -/
def combine (op : AssignOp) (old operand : Tracking Value) : Tracking Value := do
  match op with
  | .plain => operand
  | .compound op => do
    let old ← old
    let operand ← operand
    lift (σ.arith op old operand)

/-- A logical operator. -/
def logic (op : LogicOp) (left right : Tracking Bool) : Tracking Value := do
  let l ← left
  match op with
  | .and => if l then .bool <$> right else return .bool false
  | .or => if l then return .bool true else .bool <$> right

/-- The truth of what a step gives. -/
def truthOf (v : Tracking Value) : Tracking Bool := do
  let v ← v
  lift (σ.truth v)

mutual

/-- The value of an expression. -/
def value : Expr → Tracking Value
  | .constant _ v => return v.toValue
  | .declared _ name => readName Γ name
  | .input _ name site => lift (σ.readInput name site)
  | .this _ => return σ.root
  | .classRef _ c => return .cls c
  | .staticField _ c field => lift (σ.staticField c field)
  | .property _ receiver name site => do
    let receiver ← nested σ.limits (value receiver)
    lift (σ.getProperty receiver name site)
  | .methodCall _ receiver name args site => do
    let receiver ← nested σ.limits (value receiver)
    let args ← values args
    lift (σ.callMethod receiver name args site)
  | .functionCall _ function args => do
    let args ← values args
    lift (σ.callFunction function args)
  | .convert _ v target => do
    let v ← nested σ.limits (value v)
    let target ← nested σ.limits (value target)
    lift (σ.convertToClass v target)
  | .index _ receiver position site => do
    let receiver ← nested σ.limits (value receiver)
    let position ← nested σ.limits (value position)
    lift (σ.getIndex receiver position site)
  | .assign _ target op v stored => do
    let place ← place target
    let old := readPlace σ (nested σ.limits (value target)) place
    let new ← combine σ op old (nested σ.limits (value v))
    let new ← lift (σ.convert? new stored)
    writePlace σ Γ new place
    return new
  | .arith _ op left right => do
    let left ← nested σ.limits (value left)
    let right ← nested σ.limits (value right)
    lift (σ.arith op left right)
  | .logic _ op left right =>
    logic op (truthOf σ (nested σ.limits (value left))) (truthOf σ (nested σ.limits (value right)))
  | .compare _ op left right => do
    let left ← nested σ.limits (value left)
    let right ← nested σ.limits (value right)
    .bool <$> lift (.act (σ.world.compare op left right))
  | .unary _ op operand => do
    let operand ← nested σ.limits (value operand)
    lift (σ.unary op operand)
  | .step _ op target => do
    let place ← place target
    let old ← readPlace σ (nested σ.limits (value target)) place
    let new ← lift (σ.counted op target.type old)
    writePlace σ Γ new place
    return old
  | .cast _ type operand => do
    let operand ← nested σ.limits (value operand)
    lift (σ.convert operand type)
  | .conditional _ cond thenBranch elseBranch => do
    let cond ← nested σ.limits (value cond)
    if ← lift (σ.truth cond) then nested σ.limits (value thenBranch)
    else nested σ.limits (value elseBranch)
  | .construct _ c args chosen => do
    let args ← values args
    lift (.act (σ.world.construct c args chosen))
  | .newArray _ item items => do
    let items ← values items
    lift (σ.newArray item items)
  | .newSized _ item length => do
    let length ← nested σ.limits (value length)
    lift (σ.newSized item length)
  | .inlineList _ items => do
    let items ← values items
    lift (.act (Act.newList items))
  | .inlineMap _ entries => do
    let entries ← entryValues entries
    lift (.act (Act.newMap entries))

/-- The place that an expression names as the target of an assignment. -/
def place : Expr → Tracking Place
  | .property _ receiver name site => do
    let receiver ← nested σ.limits (value receiver)
    return .property receiver name site
  | .index _ receiver position site => do
    let receiver ← nested σ.limits (value receiver)
    let position ← nested σ.limits (value position)
    return .index receiver position site
  | target => return .name target

/-- The values of expressions in a row. -/
def values : List Expr → Tracking (List Value)
  | [] => return []
  | e :: es => do
    let v ← nested σ.limits (value e)
    return v :: (← values es)

/-- The keys and values of the entries of a map. -/
def entryValues : List (Expr × Expr) → Tracking Entries
  | [] => return []
  | (k, v) :: es => do
    let k ← nested σ.limits (value k)
    let v ← nested σ.limits (value v)
    return (k, v) :: (← entryValues es)

end

end

/-! ## Statements -/

/-- Go on, unless a statement has returned. -/
def orReturn (flow : Flow) (next : Value → Tracking Flow) : Tracking Flow :=
  match flow with
  | .normal v => next v
  | .returned v => return .returned v

/-- Repeat a body while a condition holds, at most `turns` times. -/
def whileTrue (cond : Tracking Bool) (body : Tracking Flow) : Nat → Tracking Flow
  | 0 => throw .outOfFuel
  | turns + 1 => do
    if ← cond then orReturn (← body) fun _ => whileTrue cond body turns
    else return .normal .null

/-- Run a body for each item. -/
def forEach (body : Value → Tracking Flow) : List Value → Tracking Flow
  | [] => return .normal .null
  | v :: vs => do orReturn (← body v) fun _ => forEach body vs

section

variable (σ : Setting) (Γ : Scopes Declared)

/-- The value of an expression that may be missing. -/
def value? : Option Expr → Tracking Value
  | some e => nested σ.limits (value σ Γ e)
  | none => return .null

/-- Whether a condition holds. -/
def condition (cond : Expr) : Tracking Bool := do
  let v ← nested σ.limits (value σ Γ cond)
  lift (σ.truth v)

/-- Whether a condition holds that may be missing. -/
def condition? : Option Expr → Tracking Bool
  | some cond => condition σ Γ cond
  | none => return true

/-- A run of the body of a loop. -/
def loopBody (body : Tracking Flow) : Tracking Flow := do
  lift (Exec.tick σ.limits)
  inBlock body

/-- A run of the body of a `for` statement, and the updates. -/
def forBody (update : List Expr) (body : Tracking Flow) : Tracking Flow := do
  let flow ← loopBody σ body
  orReturn flow fun _ => do
    let _ ← values σ Γ update
    return .normal .null

/-- A run of the body of a loop over items; the loop is the declaration of their name. -/
def itemBody (p : Path) (name : String) (declared : Option Ty) (body : Tracking Flow) (item : Value) :
    Tracking Flow := do
  lift (Exec.tick σ.limits)
  let item ← lift (σ.convert? item declared)
  inBlock do
    declare p name item
    body

/-- Execute a declaration with its initial value. -/
def declareName (p : Path) (name : String) (declared : Option Ty) (init : Option Expr) (inBlock : Bool) :
    Tracking Flow := do
  let v ← value? σ Γ init
  let v ← lift (σ.convert? v declared)
  if inBlock then declare p name v else lift (Exec.bind name v)
  return .normal v

end

mutual

/-- Run the statement at a path. -/
def run (σ : Setting) (Γ : Scopes Declared) (p : Path) : Stmt → Tracking Flow
  | .expr e => .normal <$> value σ Γ e
  | .declare _ name declared init inBlock => declareName σ Γ p name declared init inBlock
  | .block _ body => inBlock (runAll σ Γ.push p 0 body .null)
  | .branch _ cond thenBody elseBody => do
    if ← condition σ Γ cond then inBlock (runAll σ Γ.push (0 :: p) 0 thenBody .null)
    else
      match elseBody with
      | some body => inBlock (runAll σ Γ.push (1 :: p) 0 body .null)
      | none => return .normal .null
  | .whileLoop _ cond body =>
    whileTrue (condition σ Γ cond) (loopBody σ (runAll σ Γ.push p 0 body .null)) σ.turns
  | .forLoop _ init cond update body =>
    inBlock do
      runInit σ Γ.push (0 :: p) init
      let Γ := Γ.push.afterInit (0 :: p) init
      whileTrue (condition? σ Γ cond)
        (forBody σ Γ update (runAll σ Γ.push (1 :: p) 0 body .null)) σ.turns
  | .forEach _ name declared items body => do
    let v ← nested σ.limits (value σ Γ items)
    let items ← lift (σ.itemsOf v)
    let Γ := (Γ.push.declaring name ⟨p, true⟩).push
    forEach (itemBody σ p name declared (runAll σ Γ p 0 body .null)) items
  | .returns _ e => .returned <$> value? σ Γ e
  | .nop _ => return .normal .null

/-- Run the start of a `for` statement. The scope of a row of declarators is that of the statement. -/
def runInit (σ : Setting) (Γ : Scopes Declared) (p : Path) : Option Stmt → Tracking Unit
  | none => return ()
  | some (.block _ row) => do
    let _ ← nested σ.limits (inBlock (runAll σ Γ p 0 row .null))
  | some s => do
    let _ ← nested σ.limits (run σ Γ p s)

/-- Run statements in a row at a path, the first of them in the given place, until one returns. -/
def runAll (σ : Setting) (Γ : Scopes Declared) (p : Path) : Nat → List Stmt → Value → Tracking Flow
  | _, [], last => return .normal last
  | i, s :: ss, _ => do
    let flow ← nested σ.limits (run σ Γ (i :: p) s)
    orReturn flow fun v => runAll σ (Γ.after (⟨·, true⟩) (i :: p) s) p (i + 1) ss v

end

/-- Run a program. -/
def runProgram (σ : Setting) (p : Program) : Tracking Value := do
  let flow ← runAll σ .empty [] 0 p.body .null
  return flow.value

end Tracking

end HostExpr
