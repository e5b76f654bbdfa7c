import HostExpr.Typing.Name

/-!
# Typing members

The static types of accesses to members, of calls, and of new instances. Where the type of the receiver is not
known, or lacks the member and typing is not strong, the member is left to be looked up when the program runs.
-/

namespace HostExpr

open Typed

namespace Context

/-! ## Failures -/

/-- No method takes the arguments. -/
def noSuchMethod {α : Type} (ctx : Context) (receiver name : String) (args : List Ty) (span : Span) :
    Analysis α :=
  Analysis.fail (.noSuchMethod receiver name (args.map ctx.typeText)) span

/-- A member cannot be resolved. -/
def unresolvedMember {α : Type} (ctx : Context) (receiver : Ty) (member : String) (span : Span) : Analysis α :=
  Analysis.fail (.unresolvedMember (ctx.typeText receiver) member) span

/-- The type of a member of a receiver of which nothing is known. -/
def dynamicMember (ctx : Context) (receiver : Ty) (member : String) (span : Span) : Analysis Ty := do
  if ← Analysis.rejectsDynamic then ctx.unresolvedMember receiver member span
  return .object

/-- A candidate as it is displayed. -/
def signature (ctx : Context) (name : String) (params : List Ty) : String :=
  name ++ "(" ++ commaSeparated (params.map ctx.typeText) ++ ")"

/-- Several candidates are equally specific. -/
def ambiguous {α : Type} (ctx : Context) (receiver : Ty) (name label : String) (params : List (List Ty))
    (indices : List Nat) (span : Span) : Analysis α :=
  let candidates := indices.map fun i => ctx.signature label (params[i]?.getD [])
  Analysis.fail (.ambiguousOverload (ctx.typeText receiver) name candidates) span

/-! ## Properties -/

/-- The type of a property of a receiver. -/
def propertyType (ctx : Context) (receiver : Ty) (name : String) (span : Span) : Analysis Ty := do
  match receiver.cls with
  | .builtin .object | .builtin .null => ctx.dynamicMember receiver name span
  | .builtin .map => return receiver.valueType
  | c =>
    -- the length of an array is no member of its class
    if c = .builtin .array ∧ name = "length" then return .integer
    match ctx.readType? receiver name with
    | some type => return type
    | none => do
      if ← Analysis.strong then ctx.unresolvedMember receiver name span
      return .object

/-- Read a property. A static field of a class is resolved at once. -/
def property (ctx : Context) (receiver : Expr) (name : String) (span : Span) : Analysis Expr := do
  let static? := do
    let c ← receiver.classMeant?
    let field ← ctx.classes.staticField? c name
    return (c, field)
  match static? with
  | some (c, field) =>
    Analysis.remember field.type
    return .staticField ⟨field.type, span⟩ c name
  | none =>
    let type ← ctx.propertyType receiver.type name span
    Analysis.remember type
    return .property ⟨type, span⟩ receiver name (← Analysis.newSite)

/-- Read a chain of properties. -/
def propertyChain (ctx : Context) (span : Span) : Expr → List String → Analysis Expr
  | e, [] => return e
  | e, name :: names => do ctx.propertyChain span (← ctx.property e name span) names

/-! ## Methods -/

/-- Choose among candidates by static types. -/
def resolveOverload (ctx : Context) (params : List (List Ty)) (args : List Ty) : Resolution :=
  Overload.resolve ctx.classes params args ctx.world.canCoerce

/-- The type that all given types are, or `Object`. -/
def agreedType : List Ty → Ty
  | [] => .object
  | t :: ts => if ts.all (· = t) then t else .object

/-- The type of the result of the candidate that fits the arguments. -/
def overloadType (ctx : Context) (owner : Ty) (candidates : List Method) (name : String) (args : List Ty)
    (span : Span) : Analysis Ty :=
  let params := candidates.map (ctx.classes.paramTypes owner)
  match ctx.resolveOverload params args with
  | .unique i _ => return ((candidates[i]?).map fun m => ctx.classes.resolve owner m.result).getD .object
  | .deferred =>
    -- the choice is left to the run; if all agree on a type, it is known nevertheless
    let fitting := candidates.filter (·.arity = args.length)
    return agreedType (fitting.map fun m => ctx.classes.resolve owner m.result)
  | .ambiguous indices => ctx.ambiguous owner name name params indices span
  | .noMatch => ctx.noSuchMethod (ctx.typeText owner) name args span

/-- The type of the result of a method that is not a static one. -/
def memberCallType (ctx : Context) (receiver : Ty) (name : String) (args : List Ty) (span : Span) :
    Analysis Ty := do
  if receiver.isDynamic || receiver.isNull then ctx.dynamicMember receiver name span
  else
    match ctx.classes.methods receiver.cls name with
    | [] => do
      if ← Analysis.strong then ctx.noSuchMethod (ctx.typeText receiver) name args span
      return .object
    | candidates => ctx.overloadType receiver candidates name args span

/-- The type of the result of a method. Static methods of a class go first. -/
def callType (ctx : Context) (receiver : Expr) (name : String) (args : List Ty) (span : Span) :
    Analysis Ty :=
  match receiver.classMeant? with
  | some c =>
    match ctx.classes.staticMethods c name with
    | [] => ctx.memberCallType receiver.type name args span
    | statics => ctx.overloadType (.raw c) statics name args span
  | none => ctx.memberCallType receiver.type name args span

/-- Call a method. -/
def methodCall (ctx : Context) (receiver : Expr) (name : String) (args : List Expr) (span : Span) :
    Analysis Expr := do
  let type ← ctx.callType receiver name (args.map Expr.type) span
  Analysis.remember type
  return .methodCall ⟨type, span⟩ receiver name args (← Analysis.newSite)

/-! ## Functions and conversions -/

/-- The host function that a name stands for, with its place: an imported one, or a registered one. -/
def functionNamed? (ctx : Context) (env : Environment) (name : String) : Option (Nat × Function) :=
  let index? :=
    match env.imports.get? name with
    | some (.function i) => some i
    | _ => ctx.functions.get? name
  index?.bind fun i => (ctx.world.functions[i]?).map fun f => (i, f)

/-- Convert a value to a class. -/
def conversionNode (value target : Expr) (span : Span) : Expr :=
  .convert ⟨(target.classMeant?.map Ty.raw).getD .object, span⟩ value target

/-- Call a host function, or without one a method of the root. -/
def callFunction (ctx : Context) (name : String) (args : List Expr) (span : Span) : Analysis Expr := do
  let env ← Analysis.env
  match ctx.functionNamed? env name with
  | some (i, f) =>
    let types := args.map Expr.type
    -- a function is a method with a single candidate
    if ctx.resolveOverload [f.params] types = .noMatch then ctx.noSuchMethod "function" name types span
    return .functionCall ⟨f.result, span⟩ i args
  | none => ctx.methodCall (thisNode env span) name args span

/-- Call what a name stands for; `convert` with two arguments is always a conversion. -/
def callNamed (ctx : Context) (name : String) (args : List Expr) (span : Span) : Analysis Expr :=
  match name, args with
  | "convert", [value, target] => return conversionNode value target span
  | _, _ => ctx.callFunction name args span

/-! ## Items -/

/-- The type of what stands at an index. -/
def indexType (ctx : Context) (receiver : Ty) (span : Span) : Analysis Ty :=
  match receiver.cls with
  | .builtin .list | .builtin .array => return receiver.itemType
  | .builtin .map => return receiver.valueType
  | .builtin .object | .builtin .null => ctx.dynamicMember receiver "[]" span
  | _ => Analysis.fail (.notIndexable (ctx.typeText receiver)) span

/-- Read what stands at an index. -/
def index (ctx : Context) (receiver position : Expr) (span : Span) : Analysis Expr := do
  let type ← ctx.indexType receiver.type span
  Analysis.remember type
  return .index ⟨type, span⟩ receiver position (← Analysis.newSite)

/-- The type of the items that a loop runs over. -/
def iteratedType (ctx : Context) (items : Expr) : Analysis Ty :=
  match items.type.cls with
  | .builtin .list | .builtin .array => return items.type.itemType
  | .builtin .map => return items.type.keyType
  | .builtin .string => return .string
  | .builtin .object | .builtin .null => return .object
  | _ => Analysis.fail (.notIndexable (ctx.typeText items.type)) items.span

/-! ## New instances -/

/-- The constructor that fits the arguments, if it is known before the program runs. A class without constructors
is constructed without arguments. -/
def chosenConstructor (ctx : Context) (type : Ty) (args : List Ty) (span : Span) : Analysis (Option Nat) :=
  let constructors := (ctx.classes.get type.cls).constructors
  let params := constructors.map (ctx.classes.paramTypes type)
  if constructors.isEmpty && args.isEmpty then return none
  else
    match ctx.resolveOverload params args with
    | .unique i _ => return some i
    | .deferred => return none
    | .ambiguous indices => ctx.ambiguous type "new" (ctx.classes.name type.cls) params indices span
    | .noMatch => ctx.noSuchMethod (ctx.typeText type) "new" args span

/-- Make a new instance. -/
def construct (ctx : Context) (type : Ty) (args : List Expr) (span : Span) : Analysis Expr := do
  let chosen ← ctx.chosenConstructor type (args.map Expr.type) span
  Analysis.remember type
  return .construct ⟨type, span⟩ type.cls args chosen

end Context

end HostExpr
