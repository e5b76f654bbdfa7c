import HostExpr.Execution.State

/-!
# Places

What an assignment stores into: a name, a property of a value, or what stands at an index of a value. A place is
determined once, so that a change of the old value goes back to where that came from.
-/

namespace HostExpr

/-- An assignment target with its receiver and index evaluated. -/
inductive Place
  | name (target : Typed.Expr)
  | property (receiver : Value) (name : String) (site : Nat)
  | index (receiver position : Value) (site : Nat)
deriving Inhabited

namespace Setting

/-- Read a property through a call site. -/
def getProperty (σ : Setting) (receiver : Value) (name : String) (site : Nat) : Exec Value :=
  .atSite site (fun s => s.get σ.world σ.strategy receiver) (σ.world.getProperty receiver name)

/-- Write a property through a call site. -/
def setProperty (σ : Setting) (receiver : Value) (name : String) (site : Nat) (v : Value) : Exec Unit :=
  .atSite site (fun s => s.set σ.world σ.strategy receiver v) (σ.world.setProperty receiver name v)

/-- Call a method through a call site. -/
def callMethod (σ : Setting) (receiver : Value) (name : String) (args : List Value) (site : Nat) :
    Exec Value :=
  .atSite site (fun s => s.call σ.world σ.strategy receiver args) (σ.world.callMethod receiver name args)

/-- Read what stands at an index through a call site. -/
def getIndex (σ : Setting) (receiver position : Value) (site : Nat) : Exec Value :=
  .atSite site (fun s => s.getIndex σ.world σ.strategy receiver position) (σ.world.getIndex receiver position)

/-- Store a value at an index through a call site. -/
def setIndex (σ : Setting) (receiver position : Value) (site : Nat) (v : Value) : Exec Unit :=
  .atSite site (fun s => s.setIndex σ.world σ.strategy receiver position v)
    (σ.world.setIndex receiver position v)

/-! ## Inputs -/

/-- Whether a failure says that the root lacks a member. -/
def lacksMember : Stop → Bool
  | .runtime (.noSuchMember ..) => true
  | _ => false

/-- The value of an input: of a binding, or else of a member of the root. -/
def readInput (σ : Setting) (name : String) (site : Nat) : Exec Value := fun s =>
  match s.bindings.get? name with
  | some v => (.ok v, s)
  | none =>
    -- without a binding the root may have the value as a member
    if σ.root.isNull then (.error (.runtime (.unboundInput name)), s)
    else
      match σ.getProperty σ.root name site s with
      -- a failure inside the member is not the program's lack of an input
      | (.error e, s) => (.error (if lacksMember e then .runtime (.unboundInput name) else e), s)
      | read => read

/-- Store into an input: into the binding if there is one or there is no root, otherwise into the member of the
root, and if the root lacks the member into a new binding. -/
def writeInput (σ : Setting) (name : String) (site : Nat) (v : Value) : Exec Unit := fun s =>
  if s.bindings.has name || σ.root.isNull then Exec.bind name v s
  else
    match σ.setProperty σ.root name site v s with
    | (.error e, s) => if lacksMember e then Exec.bind name v s else (.error e, s)
    | written => written

/-! ## Access to places -/

/-- Read a place that is no name. -/
def readPlace (σ : Setting) (readName : Exec Value) : Place → Exec Value
  | .name _ => readName
  | .property receiver name site => σ.getProperty receiver name site
  | .index receiver position site => σ.getIndex receiver position site

/-- Store into a name. -/
def writeTarget (σ : Setting) (target : Typed.Expr) (v : Value) : Exec Unit :=
  match target with
  | .declared _ name => .writeName name v
  | .input _ name site => σ.writeInput name site v
  | _ =>
    Exec.fail (.invalidOperands "=" (target.type.text σ.world.classes) (v.typeName σ.world.classes))

/-- Store into a place. -/
def writePlace (σ : Setting) (v : Value) : Place → Exec Unit
  | .name target => σ.writeTarget target v
  | .property receiver name site => σ.setProperty receiver name site v
  | .index receiver position site => σ.setIndex receiver position site v

/-- Make a value fit a type. -/
def convert (σ : Setting) (v : Value) (t : Ty) : Exec Value := .act (σ.world.convertTo t v)

/-- Make a value fit a type if one is given. -/
def convert? (σ : Setting) (v : Value) : Option Ty → Exec Value
  | some t => σ.convert v t
  | none => return v

end Setting

end HostExpr
