import HostExpr.Proofs.Conversion.Growth
import HostExpr.Proofs.Engine.Calls
import HostExpr.Proofs.Type.Order

/-!
# Conversion down to the leaves

A value conforms to an array type if its items conform to the item type, and so on down to the leaves. A conversion to
an array type keeps an array if the item type accepts the type of its items, and that acceptance is lenient: an array
type accepts a raw one, and one whose items may be any objects. What a conversion gives conforms to the type just if
the arrays that were kept by leniency conform as they are: `conforms_convertTo_iff`.
-/

namespace HostExpr

open Relation Act

/-! ## Values that conform to a type -/

/-- The value is null, or an array whose items conform to the item type that is asked for, or, where no array with
items of a type is asked for, satisfies the type. -/
def Classes.Conforms (cs : Classes) (heap : Heap) : Ty → Value → Prop
  | _, .null => True
  | .mk (.builtin .array) (item :: _), .array h _ => ∀ x ∈ heap.items h, cs.Conforms heap item x
  | .mk (.builtin .array) (_ :: _), _ => False
  | t, v => cs.satisfies v t

/-- Within the value, no handle dangles, and the items of each array conform to the type that the array has for them. -/
structure Classes.Honest (cs : Classes) (heap : Heap) (v : Value) : Prop where
  inside : ∀ h, heap.Reaches v h → h < heap.size
  own : ∀ h given, ReflTransGen heap.Holds v (.array h given) → ∀ x ∈ heap.items h, cs.Conforms heap given x

/-! ## Arrays that are kept -/

/-- An array that a conversion keeps: its handle, the type of its items and the one that was asked for. -/
structure Keeping where
  handle : Handle
  given : Ty
  item : Ty
deriving DecidableEq

/-- The arrays that a conversion to a type keeps within a value: the item type asked for accepts the one they have. -/
def Classes.kept (cs : Classes) (heap : Heap) : Ty → Value → List Keeping
  | .mk (.builtin .array) (item :: _), .array h given =>
    if cs.assignable item given then [⟨h, given, item⟩] else (heap.items h).flatMap (cs.kept heap item)
  | .mk (.builtin .array) (item :: _), .list h => (heap.items h).flatMap (cs.kept heap item)
  | _, _ => []

/-- What conforms to the second type conforms to the first one, as far as their classes tell. -/
def Classes.refines (cs : Classes) : Ty → Ty → Bool
  | .mk (.builtin .array) (item :: _), .mk (.builtin .array) (given :: _) => cs.refines item given
  | .mk (.builtin .array) (_ :: _), _ => false
  | t, given => given.cls ≠ .builtin .null && cs.isSubclass given.cls t.cls

namespace Classes

variable {cs : Classes} {heap later : Heap} {t given : Ty} {v : Value}

/-- Where no array with items of a type is asked for, to conform is to satisfy. -/
theorem conforms_iff_satisfies (other : ∀ item rest, t ≠ .mk (.builtin .array) (item :: rest)) :
    cs.Conforms heap t v ↔ cs.satisfies v t := by
  unfold Conforms
  split
  · simp [satisfies, Value.isNull]
  · exact absurd rfl (other _ _)
  · exact absurd rfl (other _ _)
  · rfl

/-- What stands for a class that is not that of null stands for its superclasses. -/
theorem isSubclass_of_isSubclass {c d e : ClassRef} (hd : d ≠ .builtin .null) (h : cs.isSubclass c d)
    (h' : cs.isSubclass d e) : cs.isSubclass c e := by
  rw [isSubclass_iff] at h h' ⊢
  rcases h' with top | null | above
  · exact .inl top
  · exact absurd null hd
  · rcases h with rfl | null | below
    · exact .inl (by simpa [lineage, Builtin.lineage] using above)
    · exact .inr (.inl null)
    · exact .inr (.inr (lineage_trans below above))

/-- A type is an array type with items of a type, or none. -/
theorem array_or_other (t : Ty) : (∃ item rest, t = .mk (.builtin .array) (item :: rest))
    ∨ ∀ item rest, t ≠ .mk (.builtin .array) (item :: rest) := by
  by_cases typed : ∃ item rest, t = .mk (.builtin .array) (item :: rest)
  · exact .inl typed
  · exact .inr fun item rest same => typed ⟨item, rest, same⟩

/-- What conforms to a type is of its class. -/
theorem isSubclass_of_conforms (h : cs.Conforms heap t v) : cs.isSubclass v.classRef t.cls := by
  obtain ⟨item, rest, rfl⟩ | other := array_or_other t
  · cases v with
    | null => simp [isSubclass, Value.classRef]
    | array k _ => exact cs.isSubclass_refl _
    | _ => exact h.elim
  · exact isSubclass_of_satisfies ((conforms_iff_satisfies other).1 h)

/-- A type that is refined asks for nothing more, by induction on it: one item type refines the other, and the classes
of the innermost items are superclasses. -/
theorem conforms_of_refines (cs : Classes) (heap : Heap) (t given : Ty) (v : Value) (refined : cs.refines t given)
    (h : cs.Conforms heap given v) : cs.Conforms heap t v := by
  unfold refines at refined
  split at refined
  · rename_i item _ given _
    cases v with
    | null => exact trivial
    | array k _ => exact fun x hx => cs.conforms_of_refines heap item given x refined (h x hx)
    | _ => exact h.elim
  · cases refined
  · rename_i typed _
    obtain ⟨known, above⟩ := Bool.and_eq_true_iff.1 refined
    refine (conforms_iff_satisfies typed).2 (cs.satisfies_of_isSubclass typed ?_)
    exact isSubclass_of_isSubclass (of_decide_eq_true known) (isSubclass_of_conforms h) above
termination_by sizeOf t

/-- A value is honest if all of a few values are, it is one of them, and they hold no others. -/
theorem Honest.of_closed (vs : List Value) (closed : ∀ u ∈ vs, heap.contents u ⊆ vs)
    (inside : ∀ u ∈ vs, ∀ h, u.container? = some h → h < heap.size)
    (own : ∀ h given, .array h given ∈ vs → ∀ x ∈ heap.items h, cs.Conforms heap given x) (hv : v ∈ vs) :
    cs.Honest heap v := by
  have reached {u : Value} (path : ReflTransGen heap.Holds v u) : u ∈ vs := Heap.mem_of_closed closed hv path
  exact ⟨fun h ⟨u, path, hu⟩ => inside u (reached path) h hu, fun h given path => own h given (reached path)⟩

/-- What is in an honest container is honest. -/
theorem Honest.of_holds {u : Value} (h : cs.Honest heap v) (hu : heap.Holds v u) : cs.Honest heap u where
  inside k hk := by
    obtain ⟨x, path, here⟩ := hk
    exact h.inside k ⟨x, path.head hu, here⟩
  own k given path := h.own k given (path.head hu)

/-- An honest value conforms to a type in a later heap just if it did before. -/
theorem conforms_grows (cs : Classes) {heap later : Heap} (grown : heap.Grows later) (t : Ty) (v : Value)
    (honest : cs.Honest heap v) : cs.Conforms later t v ↔ cs.Conforms heap t v := by
  obtain ⟨item, rest, rfl⟩ | other := array_or_other t
  · cases v with
    | array k given =>
      have same : later.items k = heap.items k := grown.items_eq (honest.inside k ⟨_, .refl, rfl⟩)
      unfold Conforms
      rw [same]
      exact forall₂_congr fun x hx => cs.conforms_grows grown item x (honest.of_holds hx)
    | _ => exact Iff.rfl
  · rw [conforms_iff_satisfies other, conforms_iff_satisfies other]
termination_by sizeOf t

/-! ## What is kept by leniency -/

/-- The arrays within a value that a conversion keeps though the types tell too little conform as they are. -/
def Spares (cs : Classes) (heap : Heap) (t : Ty) (v : Value) : Prop :=
  ∀ k ∈ cs.kept heap t v, ¬ cs.refines k.item k.given → ∀ x ∈ heap.items k.handle, cs.Conforms heap k.item x

/-- Where no array with items of a type is asked for, none is kept. -/
theorem spares_of_other (other : ∀ item rest, t ≠ .mk (.builtin .array) (item :: rest)) : cs.Spares heap t v := by
  intro k hk
  unfold kept at hk
  split at hk
  · exact absurd rfl (other _ _)
  · exact absurd rfl (other _ _)
  · cases hk

/-- What a container keeps is what its items keep. -/
theorem spares_flatMap {item : Ty} {vs : List Value} :
    (∀ k ∈ vs.flatMap (cs.kept heap item), ¬ cs.refines k.item k.given →
      ∀ x ∈ heap.items k.handle, cs.Conforms heap k.item x) ↔ ∀ v ∈ vs, cs.Spares heap item v := by
  simp only [List.mem_flatMap]
  exact ⟨fun h v hv k hk => h k ⟨v, hv, hk⟩, fun h k ⟨v, hv, hk⟩ => h v hv k hk⟩

/-- An honest array that is kept conforms to the type just if it does not owe that to leniency. -/
theorem conforms_kept {h : Handle} {item : Ty} {rest : List Ty} (fits : cs.assignable item given)
    (honest : cs.Honest heap (.array h given)) :
    cs.Conforms heap (.mk (.builtin .array) (item :: rest)) (.array h given)
      ↔ cs.Spares heap (.mk (.builtin .array) (item :: rest)) (.array h given) := by
  have lone : cs.kept heap (.mk (.builtin .array) (item :: rest)) (.array h given) = [⟨h, given, item⟩] := by
    unfold kept
    rw [if_pos fits]
  unfold Spares
  rw [lone]
  simp only [List.mem_singleton, forall_eq]
  refine ⟨fun conforms _ => conforms, fun spared => ?_⟩
  by_cases refined : cs.refines item given
  · exact fun x hx => cs.conforms_of_refines heap item given x refined (honest.own h given .refl x hx)
  · exact spared refined

end Classes

namespace World

variable {w : World}

/-- Converted one by one, values conform to a type just if each one of them does. -/
theorem conforms_mapM (adds : w.OnlyAdds) {heap : Heap} {item : Ty}
    (each : ∀ {v s r s'}, w.classes.Honest heap v → heap.Grows s.heap → w.convertTo item v s = (.ok r, s') →
      ∀ later : Heap, s'.heap.Grows later → (w.classes.Conforms later item r ↔ w.classes.Spares heap item v))
    {vs rs : List Value} {s s' : Store} (honest : ∀ v ∈ vs, w.classes.Honest heap v) (grown : heap.Grows s.heap)
    (h : vs.mapM (w.convertTo item) s = (.ok rs, s')) {later : Heap} (after : s'.heap.Grows later) :
    (∀ r ∈ rs, w.classes.Conforms later item r) ↔ ∀ v ∈ vs, w.classes.Spares heap item v := by
  -- the items are converted in a row, and what is made for one of them is not touched for the later ones
  induction vs generalizing rs s with
  | nil =>
    cases h
    simp
  | cons v vs ih =>
    rw [List.mapM_cons] at h
    obtain ⟨r, s₁, hr, h⟩ := of_bind_ok h
    obtain ⟨others, s₂, hrs, h⟩ := of_bind_ok h
    cases h
    have first := adds_convertTo adds item v s
    have rest := Adds.mapM (adds_convertTo adds item) vs s₁
    rw [hr] at first
    rw [hrs] at rest
    rw [List.forall_mem_cons, List.forall_mem_cons]
    exact and_congr
      (each (honest v List.mem_cons_self) grown hr later (rest.trans after))
      (ih (fun v hv => honest v (List.mem_cons_of_mem _ hv)) (grown.trans first) hrs)

/-- A new array of converted items keeps them, and conforms to its type just if each one of them does. -/
theorem conforms_newArray (adds : w.OnlyAdds) {heap : Heap} {item : Ty}
    (each : ∀ {v s r s'}, w.classes.Honest heap v → heap.Grows s.heap → w.convertTo item v s = (.ok r, s') →
      ∀ later : Heap, s'.heap.Grows later → (w.classes.Conforms later item r ↔ w.classes.Spares heap item v))
    {vs : List Value} {r : Value} {s s' : Store} (honest : ∀ v ∈ vs, w.classes.Honest heap v) (grown : heap.Grows s.heap)
    (h : (do newArray item (← vs.mapM (w.convertTo item)) : Act Value) s = (.ok r, s')) {later : Heap}
    (after : s'.heap.Grows later) (rest : List Ty) :
    w.classes.Conforms later (.mk (.builtin .array) (item :: rest)) r ↔ ∀ v ∈ vs, w.classes.Spares heap item v := by
  obtain ⟨rs, s₁, hrs, h⟩ := of_bind_ok h
  cases h
  have made : later.items s₁.heap.size = rs := by
    rw [after.items_eq (by simp [Heap.size])]
    simp [Heap.items, Heap.size]
  unfold Classes.Conforms
  rw [made]
  exact conforms_mapM adds each honest grown hrs ((Heap.Grows.alloc s₁.heap _).trans after)

/-- What comes of a conversion conforms to the type, now and later, just if what it keeps by leniency did before. By
induction on the type: the items of an array that is not kept are converted to a part of it. -/
theorem conforms_convertTo_later (promised : w.KeepsPromises) (adds : w.OnlyAdds) {heap : Heap} (t : Ty) {v r : Value}
    {s s' : Store} (honest : w.classes.Honest heap v) (grown : heap.Grows s.heap)
    (h : w.convertTo t v s = (.ok r, s')) {later : Heap} (after : s'.heap.Grows later) :
    w.classes.Conforms later t r ↔ w.classes.Spares heap t v := by
  obtain ⟨item, rest, rfl⟩ | other := Classes.array_or_other t
  · -- the items of a new array are converted by this very function, for a smaller type
    have refit {vs : List Value} (within : ∀ x ∈ vs, w.classes.Honest heap x)
        (h : (do newArray item (← vs.mapM (w.convertTo item)) : Act Value) s = (.ok r, s')) :
        w.classes.Conforms later (.mk (.builtin .array) (item :: rest)) r
          ↔ ∀ x ∈ vs, w.classes.Spares heap item x := by
      refine conforms_newArray adds (fun honest grown h _ after => ?_) within grown h after rest
      exact conforms_convertTo_later promised adds item honest grown h after
    unfold convertTo at h
    dsimp only at h
    split at h
    · rename_i k given
      have here : s.heap.items k = heap.items k := grown.items_eq (honest.inside k ⟨_, .refl, rfl⟩)
      split at h
      · rename_i fits
        cases h
        rw [w.classes.conforms_grows (grown.trans after) _ _ honest]
        exact Classes.conforms_kept fits honest
      · rename_i unfit
        change (do newArray item (← (s.heap.items k).mapM (w.convertTo item)) : Act Value) s = _ at h
        rw [here] at h
        rw [refit (fun x hx => honest.of_holds hx) h, ← Classes.spares_flatMap]
        unfold Classes.Spares Classes.kept
        rw [if_neg unfit]
        rfl
    · rename_i k
      have here : s.heap.items k = heap.items k := grown.items_eq (honest.inside k ⟨_, .refl, rfl⟩)
      change (do newArray item (← (s.heap.items k).mapM (w.convertTo item)) : Act Value) s = _ at h
      rw [here] at h
      rw [refit (fun x hx => honest.of_holds hx) h, ← Classes.spares_flatMap]
      rfl
    · cases h
      exact iff_of_true trivial fun k hk => absurd hk List.not_mem_nil
    · cases h
  · obtain ⟨-, -, -, -, gives⟩ := w.proper_convertTo t v s
    -- for another type nothing lies within the value, and conversion keeps its promise
    have fits : w.classes.satisfies r t := gives r (congrArg Prod.fst h) promised
    exact iff_of_true ((Classes.conforms_iff_satisfies other).2 fits) (Classes.spares_of_other other)
termination_by sizeOf t

/-- **Conversion reaches the leaves that it does not spare.** If the conversions of the host give what they promise and
change no cell, then what comes of converting an honest value conforms to the type just if each array that was kept
although the types tell too little of it, a raw array or one of any objects where an array type was asked for, conforms
as it is. -/
theorem conforms_convertTo_iff (promised : w.KeepsPromises) (adds : w.OnlyAdds) {t : Ty} {v r : Value} {s s' : Store}
    (honest : w.classes.Honest s.heap v) (h : w.convertTo t v s = (.ok r, s')) :
    w.classes.Conforms s'.heap t r ↔
      ∀ k ∈ w.classes.kept s.heap t v, ¬ w.classes.refines k.item k.given →
        ∀ x ∈ s.heap.items k.handle, w.classes.Conforms s.heap k.item x :=
  conforms_convertTo_later promised adds t honest (.refl _) h (.refl _)

/-- The conversion of the host to points adds a cell for the point. -/
theorem onlyAdds_pointHost : pointHost.OnlyAdds := by
  intro c h listed v heap
  obtain ⟨rfl, rfl⟩ := Prod.mk.inj (List.mem_singleton.1 listed)
  exact Wrapping.grows pointsAndBoxes _ v _ heap

/-- The text in an array of any objects becomes a number where a list of such arrays is made one of arrays of numbers,
and stays a text where an array of them is. -/
theorem conforms_convertTo_iff_textGrid :
    let objects : Ty := .mk (.builtin .object) []
    let numbers : Ty := .mk (.builtin .array) [.mk (.builtin .integer) []]
    let grid : Ty := .mk (.builtin .array) [numbers]
    let store : Store := .ofHeap ⟨#[.items [.str "1"], .items [.array 0 objects]]⟩
    let table : Value := .array 1 (.mk (.builtin .array) [objects])
    let cs := pointHost.classes
    (∃ r s', pointHost.convertTo grid (.list 1) store = (.ok r, s') ∧ cs.Conforms s'.heap grid r)
      ∧ ∃ r s', pointHost.convertTo grid table store = (.ok r, s') ∧ ¬ cs.Conforms s'.heap grid r := by
  intro objects numbers grid store table cs
  have any (x : Value) : cs.Conforms store.heap objects x :=
    (Classes.conforms_iff_satisfies (by simp [objects])).2 rfl
  have honest (v : Value) (hv : v ∈ [.list 1, table, .array 0 objects, .str "1"]) : cs.Honest store.heap v := by
    refine .of_closed _ ?_ ?_ ?_ hv
    · simp [Heap.contents, Heap.items, store, Store.ofHeap, table]
    · simp [Value.container?, Heap.size, store, Store.ofHeap, table]
    · rintro h given (mem : _ ∈ [_, _, _, _])
      have which : h = 1 ∧ given = .mk (.builtin .array) [objects] ∨ h = 0 ∧ given = objects := by
        simpa [table] using mem
      obtain ⟨rfl, rfl⟩ | ⟨rfl, rfl⟩ := which
      · intro x hx
        obtain rfl := List.mem_singleton.1 hx
        exact fun y _ => any y
      · exact fun x _ => any x
  constructor
  · have made : pointHost.convertTo grid (.list 1) store
        = (.ok (.array 3 numbers), (pointHost.convertTo grid (.list 1) store).2) := by rfl
    refine ⟨_, _, made, (conforms_convertTo_iff keepsPromises_pointHost onlyAdds_pointHost (honest _ ?_) made).2 ?_⟩
    · exact List.mem_cons_self
    · have none : cs.kept store.heap grid (.list 1) = [] := by decide +kernel
      intro k hk
      rw [none] at hk
      cases hk
  · have made : pointHost.convertTo grid table store = (.ok table, store) := by rfl
    refine ⟨_, _, made, fun conforms => ?_⟩
    have leaves := (conforms_convertTo_iff keepsPromises_pointHost onlyAdds_pointHost (honest _ (by simp)) made).1
      conforms
    have kept : ⟨1, .mk (.builtin .array) [objects], numbers⟩ ∈ cs.kept store.heap grid table := by decide +kernel
    have leaf := leaves _ kept (by decide +kernel) (.array 0 objects) (by decide +kernel) (.str "1") (by decide +kernel)
    exact absurd ((Classes.conforms_iff_satisfies (by simp)).1 leaf) (by decide +kernel)

end World

end HostExpr
