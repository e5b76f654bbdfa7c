import HostExpr.Execution.Operator
import HostExpr.Execution.Place

/-!
# Evaluating expressions

The value of a typed expression. Operands are evaluated from left to right, each one level deeper than the
expression. The receiver and the index of an assignment target are evaluated first, and only once.
-/

namespace HostExpr

open Typed

/-- The value that the items of a new array start with. -/
def Ty.initial (t : Ty) : Value :=
  match t.cls with
  | .builtin .integer => .int 0
  | .builtin .long => .long 0
  | .builtin .double => .double 0
  | .builtin .boolean => .bool false
  | _ => .null

namespace Setting

/-- Evaluate one level deeper. -/
def deeper {α : Type} (σ : Setting) (body : Exec α) : Exec α := .nested σ.limits body

/-- The value of a static field. -/
def staticField (σ : Setting) (c : ClassRef) (field : String) : Exec Value :=
  match σ.world.classes.staticField? c field with
  | some f => return f.value
  | none => Exec.fail (.noSuchMember (σ.world.classes.name c) field)

/-- Call a host function. -/
def callFunction (σ : Setting) (function : Nat) (args : List Value) : Exec Value :=
  match σ.world.functions[function]? with
  | some f => .act do
    let args ← σ.world.bindArgs f.params args
    σ.world.invoke f.code .null args
  | none => return .null

/-- Convert a value to the class that another value is. -/
def convertToClass (σ : Setting) (v target : Value) : Exec Value :=
  match target with
  | .cls c => .act (σ.world.convert v c)
  | other => Exec.fail (.argumentMismatch "convert" "a Class" (other.typeName σ.world.classes))

/-- A new array with items converted to their type. -/
def newArray (σ : Setting) (item : Ty) (items : List Value) : Exec Value := .act do
  let items ← items.mapM (σ.world.convertTo item)
  Act.newArray item items

/-- A new array of a given length. -/
def newSized (σ : Setting) (item : Ty) (length : Value) : Exec Value := do
  match ← σ.convert length .integer with
  | .int n =>
    if 0 ≤ n then .act (Act.newArray item (List.replicate n.toInt.toNat item.initial))
    else Exec.fail (.indexOutOfBounds n.toInt 0)
  | other => Exec.fail (.indexOutOfBounds ((other.toInt64?.map Int64.toInt).getD (-1)) 0)

/-- The truth of a value in a condition. -/
def truth (σ : Setting) (v : Value) : Exec Bool := .act (σ.world.truth v)

/-- Arithmetic on values. -/
def arith (σ : Setting) (op : ArithOp) (left right : Value) : Exec Value :=
  .act (op.apply σ.world.classes left right)

/-- What an assignment stores: the new value, or the old one combined with it. -/
def combine (σ : Setting) (op : AssignOp) (old operand : Exec Value) : Exec Value := do
  match op with
  | .plain => operand
  | .compound op => do
    let old ← old
    let operand ← operand
    σ.arith op old operand

/-- Count a value up or down; a value of a numeric type keeps the type. -/
def counted (σ : Setting) (op : StepOp) (type : Ty) (old : Value) : Exec Value := do
  let new ← σ.arith op.arith old (.int 1)
  σ.convert? new (if type.isNumeric then some type else none)

/-- A logical operator; the right operand is evaluated only if the left one leaves it open. -/
def logic (op : LogicOp) (left right : Exec Bool) : Exec Value := do
  let l ← left
  match op with
  | .and => if l then .bool <$> right else return .bool false
  | .or => if l then return .bool true else .bool <$> right

/-- An operator in front of its operand. -/
def unary (σ : Setting) (op : UnaryOp) (operand : Value) : Exec Value :=
  match op with
  | .neg => .ofExcept (negate σ.world.classes operand)
  | .not => do return .bool (!(← σ.truth operand))

mutual

/-- The value of an expression. -/
def value (σ : Setting) : Expr → Exec Value
  | .constant _ v => return v.toValue
  | .declared _ name => .readName name
  | .input _ name site => σ.readInput name site
  | .this _ => return σ.root
  | .classRef _ c => return .cls c
  | .staticField _ c field => σ.staticField c field
  | .property _ receiver name site => do
    let receiver ← σ.deeper (value σ receiver)
    σ.getProperty receiver name site
  | .methodCall _ receiver name args site => do
    let receiver ← σ.deeper (value σ receiver)
    let args ← values σ args
    σ.callMethod receiver name args site
  | .functionCall _ function args => do
    let args ← values σ args
    σ.callFunction function args
  | .convert _ v target => do
    let v ← σ.deeper (value σ v)
    let target ← σ.deeper (value σ target)
    σ.convertToClass v target
  | .index _ receiver position site => do
    let receiver ← σ.deeper (value σ receiver)
    let position ← σ.deeper (value σ position)
    σ.getIndex receiver position site
  | .assign _ target op v stored => do
    let place ← place σ target
    let old := σ.readPlace (σ.deeper (value σ target)) place
    let new ← σ.combine op old (σ.deeper (value σ v))
    let new ← σ.convert? new stored
    σ.writePlace new place
    return new
  | .arith _ op left right => do
    let left ← σ.deeper (value σ left)
    let right ← σ.deeper (value σ right)
    σ.arith op left right
  | .logic _ op left right =>
    logic op (σ.deeper (value σ left) >>= σ.truth) (σ.deeper (value σ right) >>= σ.truth)
  | .compare _ op left right => do
    let left ← σ.deeper (value σ left)
    let right ← σ.deeper (value σ right)
    .bool <$> .act (σ.world.compare op left right)
  | .unary _ op operand => do
    let operand ← σ.deeper (value σ operand)
    σ.unary op operand
  | .step _ op target => do
    let place ← place σ target
    let old ← σ.readPlace (σ.deeper (value σ target)) place
    let new ← σ.counted op target.type old
    σ.writePlace new place
    return old
  | .cast _ type operand => do
    let operand ← σ.deeper (value σ operand)
    σ.convert operand type
  | .conditional _ cond thenBranch elseBranch => do
    let cond ← σ.deeper (value σ cond)
    if ← σ.truth cond then σ.deeper (value σ thenBranch) else σ.deeper (value σ elseBranch)
  | .construct _ c args chosen => do
    let args ← values σ args
    .act (σ.world.construct c args chosen)
  | .newArray _ item items => do
    let items ← values σ items
    σ.newArray item items
  | .newSized _ item length => do
    let length ← σ.deeper (value σ length)
    σ.newSized item length
  | .inlineList _ items => do
    let items ← values σ items
    .act (Act.newList items)
  | .inlineMap _ entries => do
    let entries ← entryValues σ entries
    .act (Act.newMap entries)

/-- The place that an expression names as the target of an assignment. -/
def place (σ : Setting) : Expr → Exec Place
  | .property _ receiver name site => do
    let receiver ← σ.deeper (value σ receiver)
    return .property receiver name site
  | .index _ receiver position site => do
    let receiver ← σ.deeper (value σ receiver)
    let position ← σ.deeper (value σ position)
    return .index receiver position site
  | target => return .name target

/-- The values of expressions in a row. -/
def values (σ : Setting) : List Expr → Exec (List Value)
  | [] => return []
  | e :: es => do
    let v ← σ.deeper (value σ e)
    return v :: (← values σ es)

/-- The keys and values of the entries of a map. -/
def entryValues (σ : Setting) : List (Expr × Expr) → Exec Entries
  | [] => return []
  | (k, v) :: es => do
    let k ← σ.deeper (value σ k)
    let v ← σ.deeper (value σ v)
    return (k, v) :: (← entryValues σ es)

end

end Setting

end HostExpr
