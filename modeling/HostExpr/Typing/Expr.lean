import HostExpr.Typing.Member

/-!
# Typing expressions

The typed form of an expression. Operands are analyzed from left to right, except that a plain assignment
analyzes its value before its target: the target may be declared by it.
-/

namespace HostExpr

open Typed

/-- The type of a constant. -/
def Syntax.Literal.type : Syntax.Literal → Ty
  | null => .null
  | bool _ => .boolean
  | int _ => .integer
  | long _ => .long
  | double _ => .double
  | str _ => .string

namespace Context

/-! ## Operators -/

/-- An operator does not take its operands. -/
def invalidOperands {α : Type} (ctx : Context) (op : String) (left right : Ty) (span : Span) : Analysis α :=
  Analysis.fail (.invalidOperands op (ctx.typeText left) (ctx.typeText right)) span

/-- The type of the result of an arithmetic operator. -/
def arithType (ctx : Context) (op : ArithOp) (left right : Ty) (span : Span) : Analysis Ty := do
  if op = .add ∧ (left.isString || right.isString) then return .string
  match left.promote? right with
  | some type => return type
  | none =>
    if left.isDynamic || right.isDynamic || !(← Analysis.strong) then return .object
    ctx.invalidOperands op.symbol left right span

/-- Whether values of two types have an order. -/
def comparable (left right : Ty) : Bool :=
  left.isDynamic || right.isDynamic || (left.isNumeric && right.isNumeric) || (left.isString && right.isString)

/-- Reject, under strong typing, a comparison of values without an order. -/
def checkComparison (ctx : Context) (op : CompareOp) (left right : Ty) (span : Span) : Analysis Unit := do
  if !op.isEquality && !comparable left right && (← Analysis.strong) then
    ctx.invalidOperands op.symbol left right span

/-- The type of the result of an operator in front of its operand. -/
def unaryType (ctx : Context) (op : UnaryOp) (operand : Ty) (span : Span) : Analysis Ty := do
  match op with
  | .not => return .boolean
  | .neg =>
    if operand.isNumeric then return operand
    if operand.isDynamic || !(← Analysis.strong) then return .object
    ctx.invalidOperands "-" operand operand span

/-- Reject, under strong typing, a condition that cannot be made a truth value. -/
def checkCondition (ctx : Context) (cond : Expr) : Analysis Unit :=
  if cond.type.isBoolean || cond.type.isDynamic then return ()
  else ctx.checkCoercion cond.type .boolean cond.span

/-! ## Casts and arrays -/

/-- Reject, under strong typing, a cast between types of which neither fits the other. -/
def checkCast (ctx : Context) (source target : Ty) (span : Span) : Analysis Unit :=
  if source.isDynamic || ctx.classes.assignable target source || ctx.classes.assignable source target then
    return ()
  else ctx.checkCoercion source target span

/-- Reject, under strong typing, a length that cannot be made an integer. -/
def checkLength (ctx : Context) (length : Expr) : Analysis Unit :=
  if length.type.isNumeric || length.type.isDynamic then return ()
  else ctx.checkCoercion length.type .integer length.span

/-- The type that an array is expected to have items of. -/
def expectedItem? (hint : Option Ty) : Option Ty :=
  hint.bind fun t => if t.isArray then some t.itemType else none

/-- An array of the items, whose type is taken from them. -/
def inlineArray (ctx : Context) (items : List Expr) (span : Span) : Expr :=
  let item := ctx.classes.commonType (items.map Expr.type)
  .newArray ⟨.arrayOf item, span⟩ item items

/-- A list of the items. -/
def inlineList (ctx : Context) (items : List Expr) (span : Span) : Analysis Expr := do
  let type := Ty.listOf (ctx.classes.commonType (items.map Expr.type))
  Analysis.remember type
  return .inlineList ⟨type, span⟩ items

/-- A map of the entries. -/
def inlineMap (ctx : Context) (entries : List (Expr × Expr)) (span : Span) : Analysis Expr := do
  let key := ctx.classes.commonType (entries.map (·.1.type))
  let value := ctx.classes.commonType (entries.map (·.2.type))
  let type := Ty.mapOf key value
  Analysis.remember type
  return .inlineMap ⟨type, span⟩ entries

/-! ## Assignment -/

/-- The text of a span cannot be assigned to. -/
def notAssignable {α : Type} (ctx : Context) (span : Span) : Analysis α :=
  let after := takeBytes span.stop ctx.source
  let before := takeBytes span.start ctx.source
  Analysis.fail (.notAssignable (String.ofList (after.drop before.length))) span

/-- Reject what cannot be assigned to. -/
def checkAssignable (ctx : Context) (target : Expr) (span : Span) : Analysis Unit :=
  if target.isAssignable then return () else ctx.notAssignable span

/-- What is known about the values that a type can store. -/
def storedType? (t : Ty) : Option Ty := if t.isDynamic then none else some t

/-- Whether a property of a receiver can be written, as far as its type tells. -/
def isWritable (ctx : Context) (receiver : Ty) (name : String) : Bool :=
  if receiver.isDynamic || receiver.cls = .builtin .map then true
  else
    match ctx.classes.property? receiver.cls name with
    | some p => p.isWritable
    | none => (ctx.classes.setterMethod? receiver.cls name).isSome

/-- Reject, under strong typing, a target that is a property which cannot be written. -/
def checkWritable (ctx : Context) (target : Expr) (span : Span) : Analysis Unit := do
  match target with
  | .property _ receiver name _ =>
    if !ctx.isWritable receiver.type name && (← Analysis.strong) then
      Analysis.fail (.notAssignable (ctx.typeText receiver.type ++ "." ++ name)) span
  | _ => return ()

/-- A name on the left of a plain assignment, and the type that it stores. A name that stands for nothing is
declared, with the type of the value. -/
def assignedName (ctx : Context) (name : String) (span : Span) (value : Ty) :
    Analysis (Expr × Option Ty) := do
  let s ← get
  if let some type := s.scopes.lookup name then return (.declared ⟨type, span⟩ name, storedType? type)
  if let some type := s.env.vars.get? name then
    return (.declared ⟨type, span⟩ name, storedType? type)
  if let some type := s.env.inputs.get? name then
    return (← inputNode name type span, storedType? type)
  if (ctx.rootMemberType? s.env name).isSome then
    let target ← ctx.ident name span
    ctx.checkAssignable target target.span
    return (target, storedType? target.type)
  else
    -- an assignment to a new name declares it
    let type := if value.isNull then .object else value
    Analysis.modifyEnv (·.declare name type)
    return (.declared ⟨type, span⟩ name, none)

/-- The left side of a plain assignment, and the type that it stores. `analyzed` is the target as an
expression. -/
def assignedTarget (ctx : Context) (target : Syntax.Expr) (analyzed : Analysis Expr) (value : Ty) :
    Analysis (Expr × Option Ty) := do
  match target with
  | .ident span name => ctx.assignedName name span value
  | .field span .. | .index span .. =>
    let node ← analyzed
    ctx.checkWritable node span
    ctx.checkAssignable node node.span
    return (node, storedType? node.type)
  | _ => ctx.notAssignable target.span

/-- A left side that is read as an expression, with the checks that it can be written. -/
def checkedTarget (ctx : Context) (analyzed : Analysis Expr) (span : Span) : Analysis (Expr × Option Ty) := do
  let node ← analyzed
  ctx.checkWritable node span
  ctx.checkAssignable node node.span
  return (node, storedType? node.type)

/-- A left side is a name, or a member or an item that is read and checked, or it is refused. -/
theorem assignedTarget_cases (target : Syntax.Expr) :
    (∃ span name, target = .ident span name)
      ∨ (∀ (ctx : Context) analyzed value,
        ctx.assignedTarget target analyzed value = ctx.checkedTarget analyzed target.span)
      ∨ ∀ (ctx : Context) analyzed value, ctx.assignedTarget target analyzed value = ctx.notAssignable target.span := by
  cases target with
  | ident span name => exact .inl ⟨span, name, rfl⟩
  | field | index => exact .inr (.inl fun _ _ _ => rfl)
  | _ => exact .inr (.inr fun _ _ _ => rfl)

/-- An assignment of a value. -/
def plainAssignment (ctx : Context) (value target : Expr) (stored : Option Ty) (span : Span) :
    Analysis Expr := do
  match stored with
  | some type => ctx.checkCoercion value.type type value.span
  | none => pure ()
  return .assign ⟨stored.getD value.type, span⟩ target .plain value stored

/-- An assignment of the old value combined with a new one. -/
def compoundAssignment (ctx : Context) (op : ArithOp) (target value : Expr) (span : Span) :
    Analysis Expr := do
  ctx.checkAssignable target target.span
  let result ← ctx.arithType op target.type value.type span
  let stored := storedType? target.type
  match stored with
  | some type => ctx.checkCoercion result type span
  | none => pure ()
  return .assign ⟨stored.getD result, span⟩ target (.compound op) value stored

/-- Counting a target up or down. -/
def stepNode (ctx : Context) (op : StepOp) (target : Expr) (span : Span) : Analysis Expr := do
  ctx.checkAssignable target span
  if !target.type.isNumeric && !target.type.isDynamic && (← Analysis.strong) then
    ctx.invalidOperands op.symbol target.type target.type span
  return .step ⟨target.type, span⟩ op target

/-! ## Expressions -/

mutual

/-- The typed form of an expression. `hint` is the type that the value will be stored as, if there is one; it
gives arrays their type. -/
def expr (ctx : Context) : Syntax.Expr → Option Ty → Analysis Expr
  | .literal span value, _ => return .constant ⟨value.type, span⟩ value
  | .ident span name, _ => ctx.ident name span
  | .field span receiver name, _ => do
    match ctx.qualified? (← get) (.field span receiver name) with
    | some (c, members) => ctx.propertyChain span (classNode c span) members
    | none => ctx.property (← expr ctx receiver none) name span
  | .methodCall span receiver name args, _ => do
    let receiver ← expr ctx receiver none
    let args ← exprs ctx args
    ctx.methodCall receiver name args span
  | .call span name args, _ => do
    let args ← exprs ctx args
    ctx.callNamed name args span
  | .index span receiver position, _ => do
    let receiver ← expr ctx receiver none
    let position ← expr ctx position none
    ctx.index receiver position span
  | .assign span target .plain value, _ => do
    let value ← expr ctx value none
    -- the value is analyzed first, so that its type is there for a new name
    let (target, stored) ← ctx.assignedTarget target (expr ctx target none) value.type
    ctx.plainAssignment value target stored span
  | .assign span target (.compound op) value, _ => do
    let target ← expr ctx target none
    let value ← expr ctx value none
    ctx.compoundAssignment op target value span
  | .arith span op left right, _ => do
    let left ← expr ctx left none
    let right ← expr ctx right none
    return .arith ⟨← ctx.arithType op left.type right.type span, span⟩ op left right
  | .logic span op left right, _ => do
    let left ← expr ctx left none
    ctx.checkCondition left
    let right ← expr ctx right none
    ctx.checkCondition right
    return .logic ⟨.boolean, span⟩ op left right
  | .compare span op left right, _ => do
    let left ← expr ctx left none
    let right ← expr ctx right none
    ctx.checkComparison op left.type right.type span
    return .compare ⟨.boolean, span⟩ op left right
  | .unary span op operand, _ => do
    let operand ← expr ctx operand none
    if op = .not then ctx.checkCondition operand
    return .unary ⟨← ctx.unaryType op operand.type span, span⟩ op operand
  | .step span op target, _ => do
    ctx.stepNode op (← expr ctx target none) span
  | .cast span type operand, _ => do
    let type ← ctx.resolveType type
    -- the type of a cast tells an array in it what its items are
    let operand ← expr ctx operand (some type)
    ctx.checkCast operand.type type span
    return .cast ⟨type, span⟩ type operand
  | .conditional span cond thenBranch elseBranch, hint => do
    let cond ← expr ctx cond none
    ctx.checkCondition cond
    let a ← expr ctx thenBranch hint
    let b ← expr ctx elseBranch hint
    return .conditional ⟨ctx.classes.unify a.type b.type, span⟩ cond a b
  | .construct span type args, _ => do
    let type ← ctx.resolveType type
    let args ← exprs ctx args
    ctx.construct type args span
  | .newArray span type items, _ => do
    let item ← ctx.resolveType type
    let items ← arrayItems ctx item items
    return .newArray ⟨.arrayOf item, span⟩ item items
  | .newSized span type length, _ => do
    let item ← ctx.resolveType type
    let length ← expr ctx length none
    ctx.checkLength length
    return .newSized ⟨.arrayOf item, span⟩ item length
  | .inlineArray span items, hint => do
    match expectedItem? hint with
    | some item =>
      let items ← arrayItems ctx item items
      return .newArray ⟨.arrayOf item, span⟩ item items
    | none => return ctx.inlineArray (← exprs ctx items) span
  | .inlineList span items, _ => do ctx.inlineList (← exprs ctx items) span
  | .inlineMap span entries, _ => do ctx.inlineMap (← exprEntries ctx entries) span

/-- The typed forms of expressions in a row. -/
def exprs (ctx : Context) : List Syntax.Expr → Analysis (List Expr)
  | [] => return []
  | e :: es => do
    let e ← expr ctx e none
    return e :: (← exprs ctx es)

/-- The typed forms of the items of an array with a known type of items. -/
def arrayItems (ctx : Context) (item : Ty) : List Syntax.Expr → Analysis (List Expr)
  | [] => return []
  | e :: es => do
    let e ← expr ctx e (some item)
    ctx.checkCoercion e.type item e.span
    return e :: (← arrayItems ctx item es)

/-- The typed forms of the entries of a map. -/
def exprEntries (ctx : Context) : List (Syntax.Expr × Syntax.Expr) → Analysis (List (Expr × Expr))
  | [] => return []
  | (key, value) :: es => do
    let key ← expr ctx key none
    let value ← expr ctx value none
    return (key, value) :: (← exprEntries ctx es)

end

end Context

end HostExpr
