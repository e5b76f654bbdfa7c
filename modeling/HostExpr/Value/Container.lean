import HostExpr.Value.Equality

/-!
# Containers

How the contents of lists, arrays and maps are read and changed. A map compares its keys as values are compared:
a key that is put again keeps its place.
-/

namespace HostExpr

/-- The value at a place of a list; null where there is none. -/
def valueAt (values : List Value) (i : Nat) : Value := values[i]?.getD .null

/-- The place of the first item equal to a value. -/
def firstEqual (eq : Comparison) (v : Value) : Nat → List Value → Option (Option Nat)
  | _, [] => some none
  | i, item :: items =>
    match eq item v with
    | some true => some (some i)
    | some false => firstEqual eq v (i + 1) items
    | none => none

/-- The entries with a value put under a key, and the value that was there. A key that is already there keeps its
place. -/
def putEntry (eq : Comparison) (key value : Value) : Entries → Option (Entries × Option Value)
  | [] => some ([(key, value)], none)
  | (k, v) :: rest =>
    match eq key k with
    | some true => some ((k, value) :: rest, some v)
    | some false => (putEntry eq key value rest).map fun (rest, old) => ((k, v) :: rest, old)
    | none => none

/-- The entries without the first one of a key, and the value that was there. -/
def removeEntry (eq : Comparison) (key : Value) : Entries → Option (Entries × Option Value)
  | [] => some ([], none)
  | (k, v) :: rest =>
    match eq key k with
    | some true => some (rest, some v)
    | some false => (removeEntry eq key rest).map fun (rest, old) => ((k, v) :: rest, old)
    | none => none

/-! ## Containers in the store -/

namespace Act

/-- The items behind a handle. -/
def items (h : Handle) : Act (List Value) := do return (← heap).items h

/-- The entries behind a handle. -/
def entries (h : Handle) : Act Entries := do return (← heap).entries h

/-- Replace the items behind a handle. -/
def setItems (h : Handle) (vs : List Value) : Act Unit := modifyHeap (·.put h (.items vs))

/-- Replace the entries behind a handle. -/
def setEntries (h : Handle) (es : Entries) : Act Unit := modifyHeap (·.put h (.entries es))

/-- The value under a key of a map. -/
def mapGet? (h : Handle) (key : Value) : Act (Option Value) := do
  let heap ← heap
  ofAnswer (lookupEntry heap.equal? key (heap.entries h))

/-- Put a value under a key of a map; gives the value that was there. -/
def mapPut (h : Handle) (key value : Value) : Act (Option Value) := do
  let heap ← heap
  let (es, old) ← ofAnswer (putEntry heap.equal? key value (heap.entries h))
  setEntries h es
  return old

/-- Remove a key from a map; gives the value that was there. -/
def mapRemove (h : Handle) (key : Value) : Act (Option Value) := do
  let heap ← heap
  let (es, old) ← ofAnswer (removeEntry heap.equal? key (heap.entries h))
  setEntries h es
  return old

/-- A new map with entries put one after the other. -/
def newMap (es : Entries) : Act Value := do
  let h ← alloc (.entries [])
  -- a key that comes again keeps its place and takes the later value
  es.forM fun (k, v) => do
    let _ ← mapPut h k v
  return .map h

end Act

end HostExpr
