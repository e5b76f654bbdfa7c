import Mathlib.Data.Finset.Card
import Mathlib.Data.Finset.Filter
import Mathlib.Data.Finset.Range
import Mathlib.Logic.Relation
import HostExpr.Value.Heap

/-!
# Containers within containers

A container may come to stand within itself. Where it does not, containers nest only so deep as there are cells in the
heap: `nestsWithin_iff`. A new cell, or new contents of one, make nothing contain itself unless a value that is put there
reaches the cell: `Grounded.put`.
-/

namespace HostExpr

open Relation

/-- The values in a cell. -/
def Cell.values : Cell → List Value
  | items vs => vs
  | entries es => es.flatMap fun (k, v) => [k, v]

theorem Cell.key_mem_values {es : Entries} {e : Value × Value} (he : e ∈ es) : e.1 ∈ (entries es).values :=
  List.mem_flatMap.2 ⟨e, he, .head _⟩

theorem Cell.value_mem_values {es : Entries} {e : Value × Value} (he : e ∈ es) : e.2 ∈ (entries es).values :=
  List.mem_flatMap.2 ⟨e, he, .tail _ (.head _)⟩

/-- What holds of all keys and values holds of all that is in the cell. -/
theorem Cell.forall_mem_values {es : Entries} {P : Value → Prop} :
    (∀ u ∈ (entries es).values, P u) ↔ ∀ e ∈ es, P e.1 ∧ P e.2 := by
  refine ⟨fun h e he => ⟨h _ (key_mem_values he), h _ (value_mem_values he)⟩, fun h u hu => ?_⟩
  obtain ⟨e, he, inside⟩ := List.mem_flatMap.1 hu
  rcases List.mem_pair.1 inside with rfl | rfl
  · exact (h e he).1
  · exact (h e he).2

/-- The handle of the container that a value is. -/
def Value.container? : Value → Option Handle
  | list h | array h _ | map h => some h
  | _ => none

namespace Heap

/-- What is in the container that a value is: items, or keys and values. -/
def contents (heap : Heap) : Value → List Value
  | .list h | .array h _ => heap.items h
  | .map h => (Cell.entries (heap.entries h)).values
  | _ => []

/-- A value is a container with another one in it. -/
def Holds (heap : Heap) (outer inner : Value) : Prop := inner ∈ heap.contents outer

/-- Within the value, or as the value itself, there is a container that is somewhere within itself. -/
def SelfContaining (heap : Heap) (v : Value) : Prop := ∃ u, ReflTransGen heap.Holds v u ∧ TransGen heap.Holds u u

/-- The value is the container with the handle, or has it within itself. -/
def Reaches (heap : Heap) (v : Value) (h : Handle) : Prop := ∃ u, ReflTransGen heap.Holds v u ∧ u.container? = some h

/-- Containers nest at most so deep within a value. -/
def NestsWithin (heap : Heap) : Nat → Value → Prop
  | 0, v => v.container? = none
  | n + 1, v => ∀ u ∈ heap.contents v, heap.NestsWithin n u

instance decidableNestsWithin (heap : Heap) : (n : Nat) → (v : Value) → Decidable (heap.NestsWithin n v)
  | 0, v => inferInstanceAs (Decidable (v.container? = none))
  | n + 1, v =>
    have := decidableNestsWithin heap n
    inferInstanceAs (Decidable (∀ u ∈ heap.contents v, heap.NestsWithin n u))

/-- Nothing contains itself. -/
def Grounded (heap : Heap) : Prop := ∀ v, ¬ heap.SelfContaining v

variable {heap : Heap} {v u : Value} {h : Handle} {n : Nat}

/-! ## Contents -/

/-- Only containers have contents. -/
theorem contents_of_container? (hv : v.container? = none) : heap.contents v = [] := by
  cases v with
  | list h => cases hv
  | array h t => cases hv
  | map h => cases hv
  | _ => rfl

/-- A cell with items is in the heap. -/
theorem lt_size_of_mem_items (hv : v ∈ heap.items h) : h < heap.size := by
  by_contra out
  have none : heap.cells[h]? = none := Array.getElem?_eq_none (Nat.not_lt.1 out)
  simp [items, none] at hv

/-- A cell with entries is in the heap. -/
theorem lt_size_of_mem_entries {e : Value × Value} (he : e ∈ heap.entries h) : h < heap.size := by
  by_contra out
  have none : heap.cells[h]? = none := Array.getElem?_eq_none (Nat.not_lt.1 out)
  simp [entries, none] at he

/-- What has contents is a container with a cell. -/
theorem container?_of_holds (hu : heap.Holds v u) : ∃ h, v.container? = some h ∧ h < heap.size := by
  unfold Holds at hu
  cases v with
  | list h | array h _ => exact ⟨h, rfl, lt_size_of_mem_items hu⟩
  | map h =>
    obtain ⟨e, he, -⟩ := List.mem_flatMap.1 hu
    exact ⟨h, rfl, lt_size_of_mem_entries he⟩
  | _ => cases hu

/-- What a container holds is in its cell. -/
theorem mem_values_of_holds {cell : Cell} (hv : v.container? = some h) (there : heap.cells[h]? = some cell)
    (hu : heap.Holds v u) : u ∈ cell.values := by
  unfold Holds at hu
  cases v with
  | list _ | array _ _ =>
    obtain rfl := Option.some.inj hv
    cases cell with
    | items vs => simpa [contents, items, there, Cell.values] using hu
    | entries es => simp [contents, items, there] at hu
  | map _ =>
    obtain rfl := Option.some.inj hv
    cases cell with
    | items vs => simp [contents, Cell.values, entries, there] at hu
    | entries es => simpa [contents, entries, there] using hu
  | _ => cases hv

/-- A cell has items or entries, and not both. -/
theorem entries_of_mem_items (hv : v ∈ heap.items h) : heap.entries h = [] := by
  unfold items at hv
  split at hv
  next vs cell => simp [entries, cell]
  next => cases hv

/-- Two containers with one handle have the same contents, if they have any. -/
theorem holds_of_same_container {w x : Value} (hv : v.container? = some h) (hw : w.container? = some h)
    (hu : heap.Holds v u) (hx : heap.Holds w x) : heap.Holds w u := by
  unfold Holds at hu hx ⊢
  -- a cell holds items or entries, so that it cannot hold something as a list and as a map
  cases v with
  | list _ | array _ _ =>
    obtain rfl := Option.some.inj hv
    cases w with
    | list _ | array _ _ => obtain rfl := Option.some.inj hw; exact hu
    | map _ =>
      obtain rfl := Option.some.inj hw
      simp [contents, Cell.values, entries_of_mem_items hu] at hx
    | _ => cases hw
  | map _ =>
    obtain rfl := Option.some.inj hv
    cases w with
    | list _ | array _ _ =>
      obtain rfl := Option.some.inj hw
      simp [contents, Cell.values, entries_of_mem_items hx] at hu
    | map _ => obtain rfl := Option.some.inj hw; exact hu
    | _ => cases hw
  | _ => cases hv

/-- A few values that hold no others reach no others. -/
theorem mem_of_closed {vs : List Value} (closed : ∀ u ∈ vs, heap.contents u ⊆ vs) (hv : v ∈ vs)
    (path : ReflTransGen heap.Holds v u) : u ∈ vs := by
  induction path with
  | refl => exact hv
  | tail _ holds mem => exact closed _ mem holds

/-! ## Self-containing values -/

/-- What contains a self-containing value is one. -/
theorem SelfContaining.of_holds (hu : heap.Holds v u) (h : heap.SelfContaining u) : heap.SelfContaining v := by
  obtain ⟨x, path, cycle⟩ := h
  exact ⟨x, path.head hu, cycle⟩

/-- A self-containing value contains one. -/
theorem SelfContaining.holds (h : heap.SelfContaining v) : ∃ u, heap.Holds v u ∧ heap.SelfContaining u := by
  obtain ⟨x, path, cycle⟩ := h
  rcases ReflTransGen.cases_head path with rfl | ⟨u, first, rest⟩
  · obtain ⟨u, first, rest⟩ := TransGen.head'_iff.1 cycle
    exact ⟨u, first, v, rest, cycle⟩
  · exact ⟨u, first, x, rest, cycle⟩

/-! ## Depth -/

theorem NestsWithin.succ (h : heap.NestsWithin n v) : heap.NestsWithin (n + 1) v := by
  induction n generalizing v with
  | zero =>
    intro u hu
    rw [contents_of_container? h] at hu
    cases hu
  | succ n ih => exact fun u hu => ih (h u hu)

theorem NestsWithin.mono {m : Nat} (h : heap.NestsWithin n v) (le : n ≤ m) : heap.NestsWithin m v := by
  induction le with
  | refl => exact h
  | step _ ih => exact ih.succ

/-- A container within itself nests deeper than any bound. -/
theorem NestsWithin.not_selfContaining (h : heap.NestsWithin n v) : ¬ heap.SelfContaining v := by
  intro cyclic
  obtain ⟨u, hu, inner⟩ := cyclic.holds
  induction n generalizing v u with
  | zero =>
    have empty : u ∈ heap.contents v := hu
    rw [contents_of_container? h] at empty
    cases empty
  | succ n ih =>
    obtain ⟨x, hx, innermost⟩ := inner.holds
    exact ih (h u hu) inner x hx innermost

open Classical in
/-- The cells of the containers with something in them that a value reaches. -/
noncomputable def reached (heap : Heap) (v : Value) : Finset Handle :=
  (Finset.range heap.size).filter fun h =>
    ∃ u x, ReflTransGen heap.Holds v u ∧ u.container? = some h ∧ heap.Holds u x

theorem mem_reached : h ∈ heap.reached v ↔
    h < heap.size ∧ ∃ u x, ReflTransGen heap.Holds v u ∧ u.container? = some h ∧ heap.Holds u x := by
  simp [reached]

/-- A container that is not within itself reaches more than what it holds does. -/
theorem card_reached_lt (plain : ¬ heap.SelfContaining v) (hu : heap.Holds v u) :
    (heap.reached u).card < (heap.reached v).card := by
  obtain ⟨h, hv, inside⟩ := container?_of_holds hu
  refine Finset.card_lt_card (Finset.ssubset_iff_of_subset ?_ |>.2 ⟨h, ?_, ?_⟩)
  · intro k hk
    obtain ⟨lt, x, y, path, hx, hy⟩ := mem_reached.1 hk
    exact mem_reached.2 ⟨lt, x, y, path.head hu, hx, hy⟩
  · exact mem_reached.2 ⟨inside, v, u, .refl, hv, hu⟩
  · -- if what it holds reached its cell, the container would be within itself
    intro again
    obtain ⟨-, x, y, path, hx, hy⟩ := mem_reached.1 again
    have back : heap.Holds x u := holds_of_same_container hv hx hu hy
    exact plain ⟨u, .single hu, TransGen.tail' path back⟩

theorem nestsWithin_of_card_le (plain : ¬ heap.SelfContaining v) (few : (heap.reached v).card ≤ n) :
    heap.NestsWithin (n + 1) v := by
  induction n generalizing v with
  | zero =>
    intro u hu
    have fewer := card_reached_lt plain hu
    omega
  | succ n ih =>
    intro u hu
    have fewer := card_reached_lt plain hu
    exact ih (fun cyclic => plain (cyclic.of_holds hu)) (by omega)

/-- Containers that are not within themselves nest no deeper than there are cells. -/
theorem nestsWithin_size (plain : ¬ heap.SelfContaining v) : heap.NestsWithin (heap.size + 1) v := by
  refine nestsWithin_of_card_le plain ?_
  have cells : heap.reached v ⊆ Finset.range heap.size := fun h hh => Finset.mem_range.2 (mem_reached.1 hh).1
  calc (heap.reached v).card ≤ (Finset.range heap.size).card := Finset.card_le_card cells
    _ = heap.size := Finset.card_range _

/-- Containers nest within some bound just if none is within itself. -/
theorem nestsWithin_iff : (∃ n, heap.NestsWithin n v) ↔ ¬ heap.SelfContaining v :=
  ⟨fun ⟨_, h⟩ => h.not_selfContaining, fun plain => ⟨_, nestsWithin_size plain⟩⟩

/-! ## New contents -/

/-- New contents of a cell change nothing about other containers. -/
theorem contents_put {cell : Cell} (hv : v.container? ≠ some h) : (heap.put h cell).contents v = heap.contents v := by
  have other {k : Handle} (hk : v.container? = some k) : k ≠ h := fun eq => hv (eq ▸ hk)
  cases v with
  | list k | array k _ => exact items_put_of_ne (other rfl) heap cell
  | map k => simp only [contents, entries_put_of_ne (other rfl) heap cell]
  | _ => rfl

/-- What a cell holds after it was given new contents is among these. -/
theorem mem_values_of_holds_put {cell : Cell} (hv : v.container? = some h) (hu : (heap.put h cell).Holds v u) :
    u ∈ cell.values := by
  obtain ⟨k, hk, inside⟩ := container?_of_holds hu
  obtain rfl : h = k := Option.some.inj (hv.symm.trans hk)
  rw [size_put] at inside
  have there : (heap.put h cell).cells[h]? = some cell := Array.getElem?_setIfInBounds_self_of_lt inside
  exact mem_values_of_holds hv there hu

/-- What a new cell holds is among what it was given. -/
theorem mem_values_of_holds_alloc {cell : Cell} (hv : v.container? = some heap.size)
    (hu : (heap.alloc cell).2.Holds v u) : u ∈ cell.values :=
  mem_values_of_holds hv (by simp [alloc, size]) hu

/-- Where only one cell changed, a path leads through its containers or was there before. -/
theorem transGen_or_through {heap' : Heap} (same : ∀ v, v.container? ≠ some h → heap'.contents v = heap.contents v)
    (path : TransGen heap'.Holds v u) :
    TransGen heap.Holds v u ∨
      ∃ w, w.container? = some h ∧ ReflTransGen heap'.Holds v w ∧ TransGen heap'.Holds w u := by
  -- a path that avoids the cell is one in the old heap; any other passes through it
  induction path with
  | @single x first =>
    by_cases hv : v.container? = some h
    · exact .inr ⟨v, hv, .refl, .single first⟩
    · refine .inl (.single ?_)
      unfold Holds at first ⊢
      rwa [← same v hv]
  | @tail x y before last ih =>
    obtain old | ⟨w, hw, toW, fromW⟩ := ih
    · by_cases hx : x.container? = some h
      · exact .inr ⟨x, hx, before.to_reflTransGen, .single last⟩
      · refine .inl (old.tail ?_)
        unfold Holds at last ⊢
        rwa [← same x hx]
    · exact .inr ⟨w, hw, toW, fromW.tail last⟩

/-- Where only one cell changed, what did not reach it reaches nothing that does. -/
theorem not_reaches_of_path {heap' : Heap} (same : ∀ v, v.container? ≠ some h → heap'.contents v = heap.contents v)
    (path : ReflTransGen heap'.Holds v u) (hv : ¬ heap.Reaches v h) : ¬ heap.Reaches u h := by
  induction path with
  | refl => exact hv
  | @tail x y _ last ih =>
    rintro ⟨w, path, hw⟩
    have hx : x.container? ≠ some h := fun hx => ih ⟨x, .refl, hx⟩
    have last : heap.Holds x y := by
      unfold Holds at last ⊢
      rwa [← same x hx]
    exact ih ⟨w, path.head last, hw⟩

/-- Nothing contains itself after a cell was given contents that did not reach it. -/
theorem Grounded.of_same {heap' : Heap} (grounded : heap.Grounded)
    (same : ∀ v, v.container? ≠ some h → heap'.contents v = heap.contents v)
    (apart : ∀ v u, v.container? = some h → heap'.Holds v u → ¬ heap.Reaches u h) : heap'.Grounded := by
  rintro v ⟨u, -, cycle⟩
  obtain old | ⟨w, hw, toW, fromW⟩ := transGen_or_through same cycle
  · exact grounded u ⟨u, .refl, old⟩
  · -- the cycle leads from the changed cell to what is in it and back
    obtain ⟨x, first, rest⟩ := TransGen.head'_iff.1 fromW
    have away : ¬ heap.Reaches w h := not_reaches_of_path same (rest.trans toW) (apart w x hw first)
    exact away ⟨w, .refl, hw⟩

/-- Nothing contains itself after a cell was given values that do not reach it. -/
theorem Grounded.put {cell : Cell} (grounded : heap.Grounded) (out : ∀ u ∈ cell.values, ¬ heap.Reaches u h) :
    (heap.put h cell).Grounded :=
  grounded.of_same (h := h) (fun _ => contents_put) fun _ u hv hu => out u (mem_values_of_holds_put hv hu)

/-- Nothing contains itself after a new cell was given values that do not reach it. -/
theorem Grounded.alloc {cell : Cell} (grounded : heap.Grounded)
    (out : ∀ u ∈ cell.values, ¬ heap.Reaches u heap.size) : (heap.alloc cell).2.Grounded := by
  refine grounded.of_same (h := heap.size) (fun v hv => ?_) fun v u hv hu => out u (mem_values_of_holds_alloc hv hu)
  have other {k : Handle} (hk : v.container? = some k) : (heap.alloc cell).2.cells[k]? = heap.cells[k]? := by
    have ne : k ≠ heap.cells.size := fun eq => hv (hk.trans (congrArg some eq))
    simp [Heap.alloc, Array.getElem?_push, ne]
  cases v with
  | list k | array k _ => simp only [contents, items, other rfl]
  | map k => simp only [contents, entries, other rfl]
  | _ => rfl

end Heap

end HostExpr
