import HostExpr.Proofs.Value.Display
import HostExpr.World.Body

/-!
# Computations that only add cells

A conversion reads what it is given and builds new containers; it changes none that is there. `Heap.Grows` says so of
two heaps, one later than the other, and `Act.Adds` of a computation. Conversions add cells only if those of the host
do.
-/

namespace HostExpr

/-- The cells of a heap are those of a later one as well. -/
def Heap.Grows (heap later : Heap) : Prop := ∀ k < heap.size, later.cells[k]? = heap.cells[k]?

namespace Heap.Grows

variable {heap later latest : Heap}

theorem refl (heap : Heap) : heap.Grows heap := fun _ _ => rfl

theorem size_le (h : heap.Grows later) : heap.size ≤ later.size := by
  by_contra fewer
  have here : later.size < heap.size := Nat.not_le.1 fewer
  have gone : heap.cells[later.size]? = none := (h _ here).symm.trans (Array.getElem?_eq_none (Nat.le_refl _))
  exact absurd (Array.getElem?_eq_none_iff.1 gone) (Nat.not_le.2 here)

theorem trans (h : heap.Grows later) (h' : later.Grows latest) : heap.Grows latest := fun k hk =>
  (h' k (Nat.lt_of_lt_of_le hk h.size_le)).trans (h k hk)

theorem alloc (heap : Heap) (cell : Cell) : heap.Grows (heap.alloc cell).2 := fun k hk => by
  have other : k ≠ heap.cells.size := Nat.ne_of_lt hk
  simp [Heap.alloc, Array.getElem?_push, other]

/-- New contents of a new cell change none that was there. -/
theorem put (h : heap.Grows later) {n : Handle} (new : heap.size ≤ n) (cell : Cell) : heap.Grows (later.put n cell) :=
  fun k hk => by
    have other : n ≠ k := Nat.ne_of_gt (Nat.lt_of_lt_of_le hk new)
    simp [Heap.put, other, h k hk]

/-- A new instance is a new cell, and only that one is given values. -/
theorem newInstance (heap : Heap) (cs : Classes) (c : ClassRef) (fields : List (String × Value)) :
    heap.Grows (heap.newInstance cs c fields).2 := by
  unfold Heap.newInstance
  dsimp only
  generalize hl : (heap.alloc (.items (cs.get c).slotDefaults)).2 = later
  have grown : heap.Grows later := hl ▸ alloc heap _
  clear hl
  induction fields generalizing later with
  | nil => exact grown
  | cons field fields ih =>
    refine ih _ ?_
    unfold putSlot slotNamed?
    dsimp only [Heap.alloc]
    split
    · rename_i found
      split at found
      · cases found
        exact grown.put (Nat.le_refl _) _
      · cases found
    · exact grown

/-- What was behind a handle is behind it later. -/
theorem items_eq (h : heap.Grows later) {k : Handle} (hk : k < heap.size) : later.items k = heap.items k := by
  unfold items
  rw [h k hk]

end Heap.Grows

/-- Conversions of the host read the heap and add cells to it, but change none. -/
def World.OnlyAdds (w : World) : Prop := ∀ c h, (c, h) ∈ w.handlers →
  ∀ v (heap : Heap), heap.Grows (h.convert v heap).2

/-- A simple conversion makes a new instance or fails. -/
theorem Wrapping.grows (cs : Classes) (target : ClassRef) (v : Value) (wrapping : Wrapping) (heap : Heap) :
    heap.Grows (wrapping.run cs target v heap).2 := by
  cases wrapping with
  | wrap field => exact .newInstance heap cs target _
  | split fields =>
    unfold run
    dsimp only
    generalize List.splitOn '-' _ = parts
    split
    · exact .refl heap
    · split
      · exact .newInstance heap cs target _
      · exact .refl heap
  | fail detail => exact .refl heap

namespace Act

variable {α β : Type}

/-- The computation changes no cell that is there. -/
def Adds (x : Act α) : Prop := ∀ s : Store, s.heap.Grows (x s).2.heap

namespace Adds

theorem pure (a : α) : Adds (Pure.pure a) := fun s => .refl s.heap

theorem throw (e : RuntimeError) : Adds (throw e : Act α) := fun s => .refl s.heap

theorem bind {x : Act α} {f : α → Act β} (hx : Adds x) (hf : ∀ a, Adds (f a)) : Adds (x >>= f) := by
  intro s
  rw [bind_eq_bindCont]
  cases (x s).1 with
  | error e => exact hx s
  | ok a => exact (hx s).trans (hf a _)

theorem map {x : Act α} (f : α → β) (hx : Adds x) : Adds (f <$> x) := hx.bind fun a => .pure (f a)

theorem mapM {f : α → Act β} (hf : ∀ a, Adds (f a)) (as : List α) : Adds (as.mapM f) := by
  induction as with
  | nil =>
    rw [List.mapM_nil]
    exact .pure []
  | cons a as ih =>
    rw [List.mapM_cons]
    exact (hf a).bind fun _ => ih.bind fun _ => .pure _

end Adds

theorem adds_alloc (cell : Cell) : Adds (alloc cell) := fun s => .alloc s.heap cell

theorem adds_items (h : Handle) : Adds (items h) := fun s => .refl s.heap

theorem adds_newArray (item : Ty) (vs : List Value) : Adds (newArray item vs) := (adds_alloc _).map _

theorem adds_textOf (cs : Classes) (v : Value) : Adds (textOf cs v) := by
  intro s
  rw [textOf_eq]
  cases s.heap.text? cs v <;> exact .refl s.heap

end Act

open Act

namespace World

section

variable {cs : Classes} (v : Value)

theorem adds_toList : Adds (toList cs v) := by
  unfold toList
  split
  · exact (adds_items _).bind fun _ => (adds_alloc _).map _
  · exact .pure _
  · exact .throw _

theorem adds_toArray : Adds (toArray cs v) := by
  unfold toArray
  split
  · exact (adds_items _).bind fun _ => adds_newArray _ _
  · exact .pure _
  · exact .throw _

/-- Conversions to scalar classes do not ask for the heap at all, but for the text of a value. -/
theorem adds_builtinConverter {b : Builtin} {c : Converter} (h : b.converter? cs = some c) : Adds (c.run v) := by
  cases b with
  | string =>
    cases h
    exact (adds_textOf cs v).map _
  | integer | long | double | boolean =>
    cases h
    dsimp only [toInt, toLong, toDouble, toBool]
    repeat' split
    all_goals first | exact .pure _ | exact .throw _
  | list =>
    cases h
    exact adds_toList v
  | array =>
    cases h
    exact adds_toArray v
  | object | null | map | cls => cases h

end

variable {w : World}

theorem adds_converter (adds : w.OnlyAdds) {target : ClassRef} {c : Converter} (found : w.converter? target = some c)
    (v : Value) : Adds (c.run v) := by
  unfold converter? at found
  split at found
  · rename_i handler listed
    cases found
    obtain ⟨before, rest, split, -⟩ := List.lookup_eq_some_iff.1 listed
    -- a handler of the host comes before the conversions that are built in
    have mem : (target, handler) ∈ w.handlers := by
      rw [split]
      exact List.mem_append_right _ List.mem_cons_self
    intro s
    have grown : s.heap.Grows (handler.convert v s.heap).2 := adds target handler mem v s.heap
    show s.heap.Grows (liftHeap .conversion (handler.convert v) s).2.heap
    unfold liftHeap
    cases hr : handler.convert v s.heap with
    | mk outcome heap =>
      rw [hr] at grown
      cases outcome <;> exact grown
  · split at found
    · exact adds_builtinConverter v found
    · cases found

/-- The record of a conversion is no cell. -/
theorem adds_runConverter {c : Converter} {v : Value} (h : Adds (c.run v)) (target : ClassRef) :
    Adds (runConverter c target v) := by
  intro s
  have grown := h s
  unfold runConverter
  split
  · rename_i hr
    rw [hr] at grown
    exact grown
  · rename_i hr
    rw [hr] at grown
    exact grown
  · rename_i hr
    rw [hr] at grown
    exact grown

theorem adds_convert (adds : w.OnlyAdds) (v : Value) (target : ClassRef) : Adds (w.convert v target) := by
  unfold convert
  split
  · exact .pure v
  · split
    · rename_i c found
      split
      · exact adds_runConverter (adds_converter adds found v) target
      · exact .throw _
    · exact .throw _

/-- Conversion to a type changes no cell that is there, by induction on the type. -/
theorem adds_convertTo (adds : w.OnlyAdds) (t : Ty) (v : Value) : Adds (w.convertTo t v) := by
  unfold convertTo
  split
  · rename_i item rest
    -- the items are converted by this very function, for a smaller type
    have refit (items : List Value) : Adds (do newArray item (← items.mapM (w.convertTo item))) :=
      (Adds.mapM (fun v => adds_convertTo adds item v) items).bind fun _ => adds_newArray item _
    dsimp only
    split
    · rename_i h given
      split
      · exact .pure _
      · exact (adds_items h).bind refit
    · exact (adds_items _).bind refit
    · exact .pure _
    · exact .throw _
  · split
    · exact .pure v
    · exact adds_convert adds v t.cls
termination_by sizeOf t

end World

end HostExpr
