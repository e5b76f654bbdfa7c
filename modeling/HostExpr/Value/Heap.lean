import HostExpr.Class.Code
import HostExpr.Value.Basic
import HostExpr.Value.Error

/-!
# The heap and the trace

The heap holds the contents of containers and instances. Beside it, the store keeps a trace of what the program
has asked the host and the built-in classes to do, the latest first. An `Act` is a computation on the store
that may fail; a failure keeps the changes made before it.
-/

namespace HostExpr

/-- The contents of a container or instance: items of a list or array, slots of an instance, or the entries of a
map. -/
inductive Cell
  | items (values : List Value)
  | entries (entries : Entries)
deriving DecidableEq, Inhabited

/-- The contents of all containers and instances, by handle. -/
structure Heap where
  cells : Array Cell
deriving DecidableEq, Inhabited

namespace Heap

/-- The heap without cells. -/
def empty : Heap := ⟨#[]⟩

/-- How many cells there are. -/
def size (heap : Heap) : Nat := heap.cells.size

/-- The items behind a handle. -/
def items (heap : Heap) (h : Handle) : List Value :=
  match heap.cells[h]? with
  | some (.items vs) => vs
  | _ => []

/-- The entries behind a handle. -/
def entries (heap : Heap) (h : Handle) : Entries :=
  match heap.cells[h]? with
  | some (.entries es) => es
  | _ => []

/-- Replace the contents behind a handle. -/
def put (heap : Heap) (h : Handle) (cell : Cell) : Heap := ⟨heap.cells.setIfInBounds h cell⟩

/-- Add a cell. -/
def alloc (heap : Heap) (cell : Cell) : Handle × Heap := (heap.size, ⟨heap.cells.push cell⟩)

/-! ## Laws -/

/-- Replacing contents adds no cell. -/
@[simp]
theorem size_put (heap : Heap) (h : Handle) (cell : Cell) : (heap.put h cell).size = heap.size := by
  simp [put, size]

/-- Items that were put are there. -/
theorem items_put_self {heap : Heap} {h : Handle} (hh : h < heap.size) (vs : List Value) :
    (heap.put h (.items vs)).items h = vs := by
  simp [put, items, size] at hh ⊢
  simp [hh]

/-- Entries that were put are there. -/
theorem entries_put_self {heap : Heap} {h : Handle} (hh : h < heap.size) (es : Entries) :
    (heap.put h (.entries es)).entries h = es := by
  simp [put, entries, size] at hh ⊢
  simp [hh]

/-- Replacing the contents behind one handle leaves those behind the others. -/
theorem items_put_of_ne {h k : Handle} (hk : k ≠ h) (heap : Heap) (cell : Cell) :
    (heap.put h cell).items k = heap.items k := by
  simp [put, items, Ne.symm hk]

/-- Replacing the contents behind one handle leaves those behind the others. -/
theorem entries_put_of_ne {h k : Handle} (hk : k ≠ h) (heap : Heap) (cell : Cell) :
    (heap.put h cell).entries k = heap.entries k := by
  simp [put, entries, Ne.symm hk]

end Heap

/-- A request to code outside the program, with its outcome. -/
inductive Event
  | ran (code : Code) (receiver : Value) (args : List Value) (outcome : Except RuntimeError Value)
  | converted (target : ClassRef) (value : Value) (outcome : Except ConversionError Value)

/-- The heap and what was asked of the outside, the latest first. -/
structure Store where
  heap : Heap
  trace : List Event

/-- The store that a heap starts with. -/
def Store.ofHeap (heap : Heap) : Store := ⟨heap, []⟩

/-- A computation on the heap alone, as the host may do it. -/
abbrev HeapAct (ε α : Type) := ExceptT ε (StateM Heap) α

/-- A computation on the store. -/
abbrev Act (α : Type) := ExceptT RuntimeError (StateM Store) α

/-- What comes of two computations comes of the second, from what comes of the first. -/
theorem bind_eq_bindCont {ε S α β : Type} (x : ExceptT ε (StateM S) α) (f : α → ExceptT ε (StateM S) β) (s : S) :
    (x >>= f) s = ExceptT.bindCont f (x s).1 (x s).2 := rfl

/-- What comes of two computations comes of the first and then of the second. -/
theorem of_bind_ok {ε S α β : Type} {x : ExceptT ε (StateM S) α} {f : α → ExceptT ε (StateM S) β} {s s' : S} {b : β}
    (h : (x >>= f) s = (.ok b, s')) : ∃ a s₁, x s = (.ok a, s₁) ∧ f a s₁ = (.ok b, s') := by
  rw [bind_eq_bindCont] at h
  cases hx : (x s).1 with
  | error e =>
    rw [hx] at h
    cases h
  | ok a =>
    rw [hx] at h
    exact ⟨a, (x s).2, Prod.ext hx rfl, h⟩

namespace Act

/-- The heap as it is now. -/
def heap : Act Heap := do return (← get).heap

/-- Change the heap. -/
def modifyHeap (f : Heap → Heap) : Act Unit := modify fun s => { s with heap := f s.heap }

/-- A new cell. -/
def alloc (cell : Cell) : Act Handle := do
  let s ← get
  let (h, heap) := s.heap.alloc cell
  set { s with heap := heap }
  return h

/-- A new list. -/
def newList (items : List Value) : Act Value := .list <$> alloc (.items items)

/-- A new array. -/
def newArray (item : Ty) (items : List Value) : Act Value := (.array · item) <$> alloc (.items items)

end Act

end HostExpr
