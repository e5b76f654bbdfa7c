import HostExpr.Proofs.Watch.Step

/-!
# Watched runs

A program is run as it is run otherwise, step by step, and its steps are taken down. Every definition here stands beside
the one of `Setting` that it watches.
-/

namespace HostExpr

open Typed

namespace Watch

variable (σ : Setting)

/-- Evaluate one level deeper. -/
def deeper {α : Type} (body : Watch α) : Watch α := nested σ.limits body

/-- Read a place that is no name. -/
def readPlace (readName : Watch Value) : Place → Watch Value
  | .name _ => readName
  | .property receiver name site => step σ (.getProperty receiver name site)
  | .index receiver position site => step σ (.getIndex receiver position site)

/-- What an assignment stores: the new value, or the old one combined with it. -/
def combine (op : AssignOp) (old operand : Watch Value) : Watch Value := do
  match op with
  | .plain => operand
  | .compound op => do
    let old ← old
    let operand ← operand
    step σ (.arith op old operand)

/-- A logical operator; the right operand is evaluated only if the left one leaves it open. -/
def logic (op : LogicOp) (left right : Watch Bool) : Watch Value := do
  let l ← left
  match op with
  | .and => if l then .bool <$> right else return .bool false
  | .or => if l then return .bool true else .bool <$> right

/-- Count a target up or down. A variable is read and counted at once: nothing comes between. -/
def countAt (op : StepOp) (target : Expr) (place : Watch Place) (read : Watch Value) : Watch Value :=
  match target with
  | .declared i name => step σ (.countName op i.type name)
  | _ => do
    let place ← place
    let old ← readPlace σ read place
    step σ (.count op target.type old place)

mutual

/-- The value of an expression. -/
def value : Expr → Watch Value
  | .constant _ v => return v.toValue
  | .declared _ name => step σ (.readName name)
  | .input _ name site => step σ (.readInput name site)
  | .this _ => return σ.root
  | .classRef _ c => return .cls c
  | .staticField _ c field => step σ (.staticField c field)
  | .property _ receiver name site => do
    let receiver ← deeper σ (value receiver)
    step σ (.getProperty receiver name site)
  | .methodCall _ receiver name args site => do
    let receiver ← deeper σ (value receiver)
    let args ← values args
    step σ (.callMethod receiver name args site)
  | .functionCall _ function args => do
    let args ← values args
    step σ (.callFunction function args)
  | .convert _ v target => do
    let v ← deeper σ (value v)
    let target ← deeper σ (value target)
    step σ (.convertToClass v target)
  | .index _ receiver position site => do
    let receiver ← deeper σ (value receiver)
    let position ← deeper σ (value position)
    step σ (.getIndex receiver position site)
  | .assign _ target op v stored => do
    let place ← place target
    let old := readPlace σ (deeper σ (value target)) place
    let new ← combine σ op old (deeper σ (value v))
    step σ (.assign new stored place)
  | .arith _ op left right => do
    let left ← deeper σ (value left)
    let right ← deeper σ (value right)
    step σ (.arith op left right)
  | .logic _ op left right =>
    logic op (do step σ (.truth (← deeper σ (value left)))) (do step σ (.truth (← deeper σ (value right))))
  | .compare _ op left right => do
    let left ← deeper σ (value left)
    let right ← deeper σ (value right)
    step σ (.compare op left right)
  | .unary _ op operand => do
    let operand ← deeper σ (value operand)
    step σ (.unary op operand)
  | .step _ op target => countAt σ op target (place target) (deeper σ (value target))
  | .cast _ type operand => do
    let operand ← deeper σ (value operand)
    step σ (.fit operand (some type))
  | .conditional _ cond thenBranch elseBranch => do
    let cond ← deeper σ (value cond)
    if ← step σ (.truth cond) then deeper σ (value thenBranch) else deeper σ (value elseBranch)
  | .construct _ c args chosen => do
    let args ← values args
    step σ (.construct c args chosen)
  | .newArray _ item items => do
    let items ← values items
    step σ (.newArray item items)
  | .newSized _ item length => do
    let length ← deeper σ (value length)
    step σ (.newSized item length)
  | .inlineList _ items => do
    let items ← values items
    step σ (.newList items)
  | .inlineMap _ entries => do
    let entries ← entryValues entries
    step σ (.newMap entries)

/-- The place that an expression names as the target of an assignment. -/
def place : Expr → Watch Place
  | .property _ receiver name site => do
    let receiver ← deeper σ (value receiver)
    return .property receiver name site
  | .index _ receiver position site => do
    let receiver ← deeper σ (value receiver)
    let position ← deeper σ (value position)
    return .index receiver position site
  | target => return .name target

/-- The values of expressions in a row. -/
def values : List Expr → Watch (List Value)
  | [] => return []
  | e :: es => do
    let v ← deeper σ (value e)
    return v :: (← values es)

/-- The keys and values of the entries of a map. -/
def entryValues : List (Expr × Expr) → Watch Entries
  | [] => return []
  | (k, v) :: es => do
    let k ← deeper σ (value k)
    let v ← deeper σ (value v)
    return (k, v) :: (← entryValues es)

end

/-! ## Statements -/

/-- The value of an expression that may be missing. -/
def value? : Option Expr → Watch Value
  | some e => deeper σ (value σ e)
  | none => return .null

/-- Whether a condition holds. -/
def condition (cond : Expr) : Watch Bool := do
  let v ← deeper σ (value σ cond)
  step σ (.truth v)

/-- Whether a condition holds that may be missing. -/
def condition? : Option Expr → Watch Bool
  | some cond => condition σ cond
  | none => return true

/-- A run of the body of a loop. -/
def loopBody (body : Watch Flow) : Watch Flow := do
  step σ .tick
  inBlock body

/-- A run of the body of a `for` statement; the updates follow it unless it returns. -/
def forBody (update : List Expr) (body : Watch Flow) : Watch Flow := do
  let flow ← loopBody σ body
  orReturn flow fun _ => do
    let _ ← values σ update
    return .normal .null

/-- A run of the body of a loop over items. -/
def itemBody (name : String) (declared : Option Ty) (body : Watch Flow) (item : Value) : Watch Flow := do
  step σ .tick
  let item ← step σ (.fit item declared)
  inBlock do
    step σ (.nameItem name item)
    body

/-- Declare a name with its initial value. -/
def declareName (name : String) (declared : Option Ty) (init : Option Expr) (inBlock : Bool) : Watch Flow := do
  let v ← value? σ init
  step σ (.declare name declared v inBlock)

mutual

/-- Run a statement. -/
def run : Stmt → Watch Flow
  | .expr e => .normal <$> value σ e
  | .declare _ name declared init inBlock => declareName σ name declared init inBlock
  | .block _ body => inBlock (runAll body .null)
  | .branch _ cond thenBody elseBody => do
    if ← condition σ cond then inBlock (runAll thenBody .null)
    else
      match elseBody with
      | some body => inBlock (runAll body .null)
      | none => return .normal .null
  | .whileLoop _ cond body => whileTrue σ (condition σ cond) (loopBody σ (runAll body .null)) σ.turns
  | .forLoop _ init cond update body =>
    inBlock do
      match init with
      | some s => let _ ← deeper σ (run s)
      | none => pure ()
      whileTrue σ (condition? σ cond) (forBody σ update (runAll body .null)) σ.turns
  | .forEach _ name declared items body => do
    let v ← deeper σ (value σ items)
    let items ← step σ (.itemsOf v)
    forEach (itemBody σ name declared (runAll body .null)) items
  | .returns _ e => .returned <$> value? σ e
  | .nop _ => return .normal .null

/-- Run statements in a row, each one level deeper, until one returns. The value is that of the last one. -/
def runAll : List Stmt → Value → Watch Flow
  | [], last => return .normal last
  | s :: ss, _ => do
    let flow ← deeper σ (run s)
    orReturn flow fun v => runAll ss v

end

/-- Run a program; its value is that of the last statement, or of the `return` that ended it. -/
def runProgram (p : Program) : Watch Value := do
  let flow ← runAll σ p.body .null
  return flow.value

end Watch

end HostExpr
