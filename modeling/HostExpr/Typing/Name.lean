import HostExpr.Syntax.Tree
import HostExpr.Typing.State

/-!
# Resolving names

What a name in a program stands for. Variables of open blocks come first, then variables of the program, inputs,
the root itself, imported classes, members of the root, and registered classes. Any other name is an input from
then on, or an error where names have to be resolved.
-/

namespace HostExpr

open Typed

namespace Context

/-! ## Types -/

/-- The class of a name: an imported one, or a registered one. -/
def classNamed? (ctx : Context) (env : Environment) (name : String) : Option ClassRef :=
  match env.imports.get? name with
  | some (.cls c) => some c
  | _ => ctx.directory.get? name

/-- Arrays of arrays of a type. -/
def arrayDims (t : Ty) : Nat → Ty
  | 0 => t
  | n + 1 => .arrayOf (arrayDims t n)

mutual

/-- The type that is written in the source. -/
def resolveType (ctx : Context) : Syntax.TypeExpr → Analysis Ty
  | .mk path args dims span => do
    match ctx.classNamed? (← Analysis.env) path with
    | none => Analysis.fail (.unknownType path) span
    | some c => return arrayDims (.mk c (← resolveTypes ctx args)) dims

/-- Types in a row. -/
def resolveTypes (ctx : Context) : List Syntax.TypeExpr → Analysis (List Ty)
  | [] => return []
  | t :: ts => do
    let t ← resolveType ctx t
    return t :: (← resolveTypes ctx ts)

end

/-- The type that may be written in the source. -/
def resolveType? (ctx : Context) : Option Syntax.TypeExpr → Analysis (Option Ty)
  | some t => some <$> ctx.resolveType t
  | none => return none

/-- Reject, under strong typing, what cannot be made to fit a type. -/
def checkCoercion (ctx : Context) (source target : Ty) (span : Span) : Analysis Unit := do
  if (← Analysis.strong) && !source.isDynamic && !ctx.classes.assignable target source
      && !ctx.world.canCoerce source target then
    Analysis.fail (.illegalCoercion (ctx.typeText source) (ctx.typeText target)) span

/-! ## Identifiers -/

/-- The type of a property as it is read from a receiver: its own, or that of a method that stands for it. -/
def readType? (ctx : Context) (receiver : Ty) (name : String) : Option Ty :=
  let getter := (ctx.classes.getterMethod? receiver.cls name).map fun m => ctx.classes.resolve receiver m.result
  match ctx.classes.property? receiver.cls name with
  | some p => if p.isReadable then some (ctx.classes.resolve receiver p.type) else getter
  | none => getter

/-- The type of a member of the root. -/
def rootMemberType? (ctx : Context) (env : Environment) (name : String) : Option Ty :=
  env.context?.bind fun root => ctx.readType? root name

/-- The root. -/
def thisNode (env : Environment) (span : Span) : Expr := .this ⟨env.context?.getD .object, span⟩

/-- A class as a value. -/
def classNode (c : ClassRef) (span : Span) : Expr := .classRef ⟨.classOf c, span⟩ c

/-- A value that the caller supplies. -/
def inputNode (name : String) (type : Ty) (span : Span) : Analysis Expr :=
  return .input ⟨type, span⟩ name (← Analysis.newSite)

/-- What a name stands for that is neither declared nor known. -/
def unknownName (name : String) (span : Span) : Analysis Expr := do
  let env ← Analysis.env
  if env.strong || env.strict then Analysis.fail (.unresolvedSymbol name) span
  -- its block is closed: from here on it is a variable of the program
  else if name ∈ env.blockDeclared then
    Analysis.modifyEnv (·.declare name .object)
    return .declared ⟨.object, span⟩ name
  else
    Analysis.modifyEnv (·.addInput name .object)
    inputNode name .object span

/-- What a name stands for that is no variable and no input. -/
def freeName (ctx : Context) (name : String) (span : Span) : Analysis Expr := do
  let env ← Analysis.env
  if name = "this" then return thisNode env span
  if let some (.cls c) := env.imports.get? name then return classNode c span
  -- a member of the root goes before a registered class, but not before an imported one
  if let some type := ctx.rootMemberType? env name then
    Analysis.remember type
    return .property ⟨type, span⟩ (thisNode env span) name (← Analysis.newSite)
  match ctx.directory.get? name with
  | some c => return classNode c span
  -- nothing is known of the name
  | none => unknownName name span

/-- What a name stands for. -/
def ident (ctx : Context) (name : String) (span : Span) : Analysis Expr := do
  let s ← get
  if let some type := s.scopes.lookup name then return .declared ⟨type, span⟩ name
  if let some type := s.env.vars.get? name then
    Analysis.remember type
    return .declared ⟨type, span⟩ name
  if let some type := s.env.inputs.get? name then
    Analysis.remember type
    inputNode name type span
  else ctx.freeName name span

/-- Whether a name stands for something other than a registered class or a new input. -/
def isBound (ctx : Context) (s : AnalysisState) (name : String) : Bool :=
  (s.scopes.lookup name).isSome || s.env.vars.has name || s.env.inputs.has name || name = "this"
    || s.env.imports.has name || (ctx.rootMemberType? s.env name).isSome

/-- The longest start of a path that names a class, of at most `length` segments; gives the class and the
segments behind it. -/
def classPrefix? (ctx : Context) (env : Environment) (path : List String) :
    Nat → Option (ClassRef × List String)
  | 0 => none
  | length + 1 =>
    match ctx.classNamed? env (".".intercalate (path.take (length + 1))) with
    | some c => some (c, path.drop (length + 1))
    | none => classPrefix? ctx env path length

/-- The class that a dotted path starts with, and the members behind it, if the path does not start with a
known name. -/
def qualified? (ctx : Context) (s : AnalysisState) (e : Syntax.Expr) : Option (ClassRef × List String) :=
  match e.segments? with
  | some (first :: second :: rest) =>
    let path := first :: second :: rest
    if ctx.isBound s first then none else ctx.classPrefix? s.env path path.length
  | _ => none

end Context

end HostExpr
