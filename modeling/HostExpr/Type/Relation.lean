import HostExpr.Class.Lookup

/-!
# Relations between types

Which types accept values of which others, the best common type of two, and what a value satisfies.
-/

namespace HostExpr

namespace Classes

mutual

/-- A value of the second type can be stored where the first is expected, as it is. A raw type is compatible
with all type arguments, and so is an argument `Object`; items of arrays follow the rule of types. -/
def assignable (cs : Classes) : Ty → Ty → Bool
  | .mk c as, .mk d bs =>
    if c.isDynamic || d = .builtin .null then true
    else if !cs.isSubclass d c then false
    else if as.isEmpty || bs.isEmpty || c ≠ d then true
    else argsAssignable cs (c = .builtin .array) as bs

/-- Type arguments fit one by one. -/
def argsAssignable (cs : Classes) (items : Bool) : List Ty → List Ty → Bool
  | [], [] => true
  | want :: wants, given :: givens =>
    (want.isDynamic || given.isDynamic || want = given || (items && assignable cs want given))
      && argsAssignable cs items wants givens
  | _, _ => false

end

/-- A value can be stored where the type is expected, as it is. -/
def satisfies (cs : Classes) (v : Value) (t : Ty) : Bool :=
  if t.isDynamic || v.isNull then true
  else
    match v with
    | .array _ item =>
      t.isArray && (t.args.isEmpty || t.itemType.isDynamic || cs.assignable t.itemType item)
    | v => cs.isSubclass v.classRef t.cls

end Classes

/-! ## Common types -/

namespace Ty

/-- The order of the numeric types by width. -/
def rank? (t : Ty) : Option Nat :=
  match t.cls with
  | .builtin .integer => some 0
  | .builtin .long => some 1
  | .builtin .double => some 2
  | _ => none

/-- The wider of two numeric types. -/
def promote? (a b : Ty) : Option Ty :=
  match a.rank?, b.rank? with
  | some m, some n => some (if n ≤ m then a else b)
  | _, _ => none

end Ty

namespace Classes

/-- The most specific type that both types fit in. -/
def unify (cs : Classes) (a b : Ty) : Ty :=
  if a = b || b.isNull then a
  else if a.isNull then b
  else
    match a.promote? b with
    | some t => t
    | none =>
      if cs.assignable a b && !a.args.isEmpty then a
      else if cs.assignable b a && !b.args.isEmpty then b
      else if cs.isSubclass b.cls a.cls then .raw a.cls
      else if cs.isSubclass a.cls b.cls then .raw b.cls
      else .object

/-- The most specific type that all given types fit in, taken up from left to right; `Object` if nothing is
known of them. -/
def commonType (cs : Classes) : List Ty → Ty
  | [] => .object
  | t :: ts =>
    let common := ts.foldl cs.unify t
    if common.isNull then .object else common

end Classes

end HostExpr
