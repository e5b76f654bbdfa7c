import HostExpr.Value.Heap

/-!
# Equality of values

Scalars are equal if they are the same, numbers only within one kind; containers are equal if their contents
are, maps regardless of order; instances are equal only to themselves. Like the text of a container, equality
of containers carries a bound on how deep they may nest.
-/

namespace HostExpr

/-- A test on values that may have no answer. -/
abbrev Comparison := Value → Value → Option Bool

/-- Items in the same order are equal one by one; lists of different lengths are not compared. -/
def equalItems (eq : Comparison) : List Value → List Value → Option Bool
  | [], [] => some true
  | a :: as, b :: bs =>
    if as.length ≠ bs.length then some false
    else
      match eq a b with
      | some true => equalItems eq as bs
      | answer => answer
  | _, _ => some false

/-- The value of the first entry whose key is equal to the given one. -/
def lookupEntry (eq : Comparison) (key : Value) : Entries → Option (Option Value)
  | [] => some none
  | (k, v) :: rest =>
    match eq key k with
    | some true => some (some v)
    | some false => lookupEntry eq key rest
    | none => none

/-- Every entry of the first map has an equal one in the second. -/
def entriesWithin (eq : Comparison) (other : Entries) : Entries → Option Bool
  | [] => some true
  | (k, v) :: rest =>
    match lookupEntry eq k other with
    | none => none
    | some none => some false
    | some (some w) =>
      match eq w v with
      | some true => entriesWithin eq other rest
      | answer => answer

/-- Maps of one size, each entry of the first with an equal one in the second. -/
def equalEntries (eq : Comparison) (as bs : Entries) : Option Bool :=
  if as.length ≠ bs.length then some false else entriesWithin eq bs as

namespace Heap

/-- Equality of values whose containers nest at most `fuel` deep. -/
def equalWithin (heap : Heap) : Nat → Comparison
  | fuel, .list a, .list b =>
    if a = b then some true
    else
      match fuel with
      | 0 => none
      | fuel + 1 => equalItems (equalWithin heap fuel) (heap.items a) (heap.items b)
  | fuel, .array a _, .array b _ =>
    if a = b then some true
    else
      match fuel with
      | 0 => none
      | fuel + 1 => equalItems (equalWithin heap fuel) (heap.items a) (heap.items b)
  | fuel, .map a, .map b =>
    if a = b then some true
    else
      match fuel with
      | 0 => none
      | fuel + 1 => equalEntries (equalWithin heap fuel) (heap.entries a) (heap.entries b)
  | _, .object a _, .object b _ => some (a = b)
  | _, v, w => some (v = w)

/-- Equality of values. A comparison that comes to an end does not ask for itself again, so it nests no deeper than there
are pairs of cells. -/
def equal? (heap : Heap) : Comparison := heap.equalWithin (heap.size * heap.size + 1)

end Heap

/-- An answer that a container within itself may prevent. -/
def Act.ofAnswer {α : Type} : Option α → Act α
  | some a => return a
  | none => throw .selfContaining

/-- Equality of values in the store. -/
def Act.equal (v w : Value) : Act Bool := do
  Act.ofAnswer ((← Act.heap).equal? v w)

end HostExpr
