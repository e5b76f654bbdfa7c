import HostExpr.Type.Relation

/-!
# Overload resolution

A call chooses among candidates, each given by its parameter types. Candidates that take the arguments as they
are win over those that need conversions; among several, the most specific wins, and then the one whose
parameters, from left to right, stand on the most derived classes.
-/

namespace HostExpr

/-- The outcome of a choice; candidates are named by their place in the list. -/
inductive Resolution
  /-- One candidate; whether an argument has to be converted. -/
  | unique (index : Nat) (coerced : Bool)
  /-- Some argument is of unknown type and several candidates are left. -/
  | deferred
  /-- Several candidates are equally specific. -/
  | ambiguous (indices : List Nat)
  | noMatch
deriving DecidableEq, Repr

namespace Overload

/-- A candidate with its place in the list. -/
structure Candidate where
  index : Nat
  params : List Ty

/-- The candidates with their places, from `start` on. -/
def enumerate : Nat → List (List Ty) → List Candidate
  | _, [] => []
  | start, params :: rest => ⟨start, params⟩ :: enumerate (start + 1) rest

/-- Each argument fits its parameter. -/
def acceptsAll (fits : Ty → Ty → Bool) (params args : List Ty) : Bool :=
  (params.zip args).all fun (param, arg) => fits param arg

/-- Each parameter of the one list accepts the corresponding one of the other. -/
def moreSpecific (cs : Classes) (a b : List Ty) : Bool :=
  (a.zip b).all fun (p, q) => cs.assignable q p

/-- The candidates that are at least as specific as all others. -/
def maximal (cs : Classes) (pool : List Candidate) : List Candidate :=
  pool.filter fun c => pool.all fun d => c.index = d.index || moreSpecific cs c.params d.params

/-- How derived the class of a parameter is. -/
def depthAt (cs : Classes) (position : Nat) (c : Candidate) : Nat :=
  match c.params[position]? with
  | some t => cs.depth t.cls
  | none => 0

/-- The candidates whose parameter at a position stands on the most derived class. -/
def deepestAt (cs : Classes) (position : Nat) (pool : List Candidate) : List Candidate :=
  let deepest := pool.foldl (fun n c => max n (depthAt cs position c)) 0
  pool.filter fun c => depthAt cs position c = deepest

/-- Break ties at the positions from `position` on, `arity` of them, until one candidate is left. -/
def breakTies (cs : Classes) (coerced : Bool) : Nat → Nat → List Candidate → Resolution
  | 0, _, pool => .ambiguous (pool.map Candidate.index)
  | arity + 1, position, pool =>
    match deepestAt cs position pool with
    | [only] => .unique only.index coerced
    | pool => breakTies cs coerced arity (position + 1) pool

/-- Choose among candidates that all take `arity` arguments and accept the given ones. -/
def pick (cs : Classes) (arity : Nat) (viable : List Candidate) (coerced : Bool) : Resolution :=
  match viable with
  | [only] => .unique only.index coerced
  | viable =>
    match maximal cs viable with
    | [only] => .unique only.index coerced
    -- no candidate is as specific as all others, or several are
    | [] => breakTies cs coerced arity 0 viable
    | best => breakTies cs coerced arity 0 best

/-- Resolve a call. `coercible arg param` says whether an argument can be converted to a parameter type. -/
def resolve (cs : Classes) (candidates : List (List Ty)) (args : List Ty)
    (coercible : Ty → Ty → Bool) : Resolution :=
  let byArity := (enumerate 0 candidates).filter fun c => c.params.length = args.length
  if byArity.isEmpty then .noMatch
  -- what the argument is decides, and only a run can tell
  else if args.any Ty.isDynamic && 1 < byArity.length then .deferred
  else
    let asIs (param arg : Ty) : Bool := cs.assignable param arg || arg.isDynamic
    let fitting := byArity.filter fun c => acceptsAll asIs c.params args
    -- a candidate that takes the arguments as they are goes before one that converts them
    if !fitting.isEmpty then pick cs args.length fitting false
    else
      let convertible :=
        byArity.filter fun c => acceptsAll (fun p a => asIs p a || coercible a p) c.params args
      if !convertible.isEmpty then pick cs args.length convertible true else .noMatch

end Overload

end HostExpr
