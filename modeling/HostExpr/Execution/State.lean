import HostExpr.Names.Scope
import HostExpr.Typing.Tree
import HostExpr.World.Conversion

/-!
# The state of a running program

A program runs against a world, a root value and the caller's bindings. Variables of blocks live in frames, all
others among the bindings. How deep evaluation nests and how often loops run are counted and may be limited. Whatever
a program has done before it stops stays done.
-/

namespace HostExpr

/-- The limits of one run. -/
structure Limits where
  /-- How deep statements and expressions may nest. -/
  maxDepth : Nat
  /-- How often the bodies of loops may run, all loops together; without limit if absent. -/
  maxIterations : Option Nat
deriving DecidableEq, Repr, Inhabited

/-- The limits of a run for which none are given. -/
def Limits.default : Limits := ⟨1000, none⟩

/-- Why a run ends without a value. -/
inductive Stop
  | runtime (e : RuntimeError)
  | stackOverflow (depth limit : Nat)
  | iterationLimit (limit : Nat)
  /-- A loop without limit has run more often than any loop can. -/
  | outOfFuel
deriving DecidableEq, Repr

/-- The message of a stop. -/
def Stop.message : Stop → String
  | runtime e => e.message
  | stackOverflow depth limit =>
    "Evaluation stack overflow: depth " ++ natText depth ++ " exceeds maximum of " ++ natText limit
  | iterationLimit limit => "Loop iteration limit of " ++ natText limit ++ " exceeded"
  | outOfFuel => "Loop does not end"

/-- What does not change while a program runs. -/
structure Setting where
  world : World
  /-- The strategy of call sites that are told none. -/
  strategy : Strategy
  limits : Limits
  /-- A bound on the runs of any one loop, for loops without limit. -/
  fuel : Nat
  root : Value

/-- What changes while a program runs. -/
structure Running where
  store : Store
  frames : Scopes Value
  bindings : Table Value
  sites : Array Site
  depth : Nat
  iterations : Nat

/-- A step of a running program. -/
abbrev Exec (α : Type) := ExceptT Stop (StateM Running) α

namespace Exec

/-- A computation on the store. -/
def act {α : Type} (a : Act α) : Exec α := fun s =>
  match a s.store with
  | (.ok r, store) => (.ok r, { s with store := store })
  | (.error e, store) => (.error (.runtime e), { s with store := store })

/-- Stop with a failure of the program. -/
def fail {α : Type} (e : RuntimeError) : Exec α := throw (.runtime e)

/-- The result of an operation that does not touch the store. -/
def ofExcept {α : Type} : Except RuntimeError α → Exec α
  | .ok a => return a
  | .error e => fail e

/-- Go one level deeper, if the limit allows it, and come back whatever happens. -/
def nested {α : Type} (limits : Limits) (body : Exec α) : Exec α := fun s =>
  if limits.maxDepth ≤ s.depth then (.error (.stackOverflow s.depth limits.maxDepth), s)
  else
    let (outcome, s) := body { s with depth := s.depth + 1 }
    (outcome, { s with depth := s.depth - 1 })

/-- Run in a new block, and close it whatever happens. -/
def inBlock {α : Type} (body : Exec α) : Exec α := fun s =>
  let (outcome, s) := body { s with frames := s.frames.push }
  (outcome, { s with frames := s.frames.popped })

/-- Count a run of the body of a loop. -/
def tick (limits : Limits) : Exec Unit := do
  let s ← get
  let n := s.iterations + 1
  set { s with iterations := n }
  match limits.maxIterations with
  | some limit => if limit < n then throw (.iterationLimit limit)
  | none => return ()

/-- Use a call site, or do without if there is none of the number. The site is kept as the access leaves it. -/
def atSite {α : Type} (site : Nat) (through : Site → Act α × Site) (otherwise : Act α) : Exec α := fun s =>
  match s.sites[site]? with
  | some given =>
    let (access, kept) := through given
    act access { s with sites := s.sites.setIfInBounds site kept }
  | none => act otherwise s

/-- The value of a name: of a variable of a block, or else of a binding, or else null. -/
def readName (name : String) : Exec Value := do
  let s ← get
  return ((s.frames.lookup name).or (s.bindings.get? name)).getD .null

/-- Bind a name. -/
def bind (name : String) (v : Value) : Exec Unit :=
  modify fun s => { s with bindings := s.bindings.put name v }

/-- Store into a name: into the variable of a block if there is one, and otherwise into the bindings. -/
def writeName (name : String) (v : Value) : Exec Unit := modify fun s =>
  match s.frames.assign? name v with
  | some frames => { s with frames := frames }
  | none => { s with bindings := s.bindings.put name v }

/-- Declare a name in the innermost block, or bind it if no block is open. -/
def declare (name : String) (v : Value) : Exec Unit := modify fun s =>
  match s.frames.declare name v with
  | .ok frames => { s with frames := frames }
  | .error _ => { s with bindings := s.bindings.put name v }

end Exec

end HostExpr
