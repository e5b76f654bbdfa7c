import HostExpr.Proofs.Execution.Steps
import HostExpr.Proofs.Site.Conformance
import HostExpr.Proofs.Value.Entries

/-!
# Reading back what was written

A property that an instance has in a slot is read as it was stored, and so is an item of a list or an array, or an entry
of a map. What is stored is not always what was given: a slot takes values of the declared type, an array those of its
item type, and a value is made to fit first. `getProperty_of_setProperty` and `getIndex_of_setIndex` say what is read
right after a write.
-/

namespace HostExpr

/-! ## Computations without the store -/

namespace Act

variable {α β : Type}

/-- The computation comes to the same in every store and leaves the heap as it is. -/
def Steady (x : Act α) : Prop := ∃ r, ∀ s, (x s).1 = r ∧ (x s).2.heap = s.heap

namespace Steady

theorem pure (a : α) : Steady (Pure.pure a) := ⟨.ok a, fun _ => ⟨rfl, rfl⟩⟩

theorem throw (e : RuntimeError) : Steady (MonadExcept.throw e : Act α) := ⟨.error e, fun _ => ⟨rfl, rfl⟩⟩

theorem bind {x : Act α} {f : α → Act β} (hx : Steady x) (hf : ∀ a, Steady (f a)) : Steady (x >>= f) := by
  obtain ⟨r, hx⟩ := hx
  cases r with
  | error e =>
    refine ⟨.error e, fun s => ?_⟩
    obtain ⟨outcome, heap⟩ := hx s
    rw [bind_eq_bindCont, outcome]
    exact ⟨rfl, heap⟩
  | ok a =>
    obtain ⟨r, hf⟩ := hf a
    refine ⟨r, fun s => ?_⟩
    obtain ⟨outcome, heap⟩ := hx s
    obtain ⟨outcome', heap'⟩ := hf (x s).2
    rw [bind_eq_bindCont, outcome]
    exact ⟨outcome', heap'.trans heap⟩

/-- To record a conversion leaves the heap as the conversion does. -/
theorem runConverter {c : Converter} {v : Value} (h : Steady (c.run v)) (target : ClassRef) :
    Steady (World.runConverter c target v) := by
  obtain ⟨r, h⟩ := h
  refine ⟨r, fun s => ?_⟩
  obtain ⟨outcome, heap⟩ := h s
  unfold World.runConverter
  split
  all_goals
    rename_i run
    rw [run] at outcome heap
    exact ⟨outcome, heap⟩

end Steady

end Act

/-- The built-in conversion to a long needs nothing but the value. -/
theorem steady_toLong (cs : Classes) (v : Value) : Act.Steady (toLong cs v) := by
  unfold toLong
  split
  · exact .pure _
  · exact .pure _
  · exact .pure _
  · exact .pure _
  · dsimp only
    split
    · exact .pure _
    · exact .throw _
  · exact .throw _

namespace World

variable {w : World} {receiver index v : Value} {name : String} {h : Handle} {s s' : Store}

/-! ## Positions -/

/-- The host has no part in which position an index is: the index is an integer, or the host has no conversion to longs
of its own. -/
def FixesPosition (w : World) (index : Value) : Prop :=
  index.toInt64?.isSome ∨ w.handlers.lookup (.builtin .long) = none

theorem steady_convert_long (builtin : w.handlers.lookup (.builtin .long) = none) (v : Value) :
    Act.Steady (w.convert v (.builtin .long)) := by
  have converter : w.converter? (.builtin .long) = some ⟨isScalar, toLong w.classes⟩ := by
    unfold converter?
    rw [builtin]
    rfl
  unfold convert
  rw [converter]
  split
  · exact .pure _
  · dsimp only
    split
    · exact .runConverter (steady_toLong _ _) _
    · exact .throw _

/-- The number that a value stands for as an index. -/
def indexNumber (w : World) (index : Value) : Act Int :=
  match index.toInt64? with
  | some n => pure n.toInt
  | none => do return ((← w.convert index (.builtin .long)).toInt64?.map Int64.toInt).getD (-1)

/-- A number as a position below a length. -/
def positionBelow (length : Nat) (n : Int) : Except RuntimeError Nat :=
  if 0 ≤ n ∧ n < length then .ok n.toNat else .error (.indexOutOfBounds n length)

/-- A position is the number that the index stands for, if that is below the length. -/
theorem position_eq (w : World) (index : Value) (length : Nat) :
    w.position index length = w.indexNumber index >>= fun n => ExceptT.mk (pure (positionBelow length n)) := by
  have below (n : Int) : (if 0 ≤ n ∧ n < length then pure n.toNat else throw (.indexOutOfBounds n length) : Act Nat)
      = ExceptT.mk (pure (positionBelow length n)) := by
    unfold positionBelow
    split <;> rfl
  unfold position indexNumber
  cases index.toInt64? with
  | some n => exact below n.toInt
  | none => simp only [below, bind_assoc, pure_bind]

theorem steady_indexNumber (fixed : w.FixesPosition index) : Act.Steady (w.indexNumber index) := by
  unfold indexNumber
  split
  · exact .pure _
  next unmarked =>
    obtain whole | builtin := fixed
    · rw [unmarked] at whole
      cases whole
    · exact (steady_convert_long builtin index).bind fun _ => .pure _

/-- Where the host has no part in it, an index is the same number everywhere. -/
theorem exists_position (fixed : w.FixesPosition index) : ∃ r : Except RuntimeError Int, ∀ length s,
    (w.position index length s).1 = r.bind (positionBelow length) ∧ (w.position index length s).2.heap = s.heap := by
  obtain ⟨r, number⟩ := steady_indexNumber fixed
  refine ⟨r, fun length s => ?_⟩
  obtain ⟨outcome, heap⟩ := number s
  rw [position_eq, bind_eq_bindCont, outcome]
  cases r with
  | error e => exact ⟨rfl, heap⟩
  | ok n => exact ⟨rfl, heap⟩

theorem heap_position (fixed : w.FixesPosition index) (length : Nat) (s : Store) :
    (w.position index length s).2.heap = s.heap := by
  obtain ⟨_, position⟩ := exists_position fixed
  exact (position length s).2

theorem position_congr (fixed : w.FixesPosition index) (length : Nat) (s s' : Store) :
    (w.position index length s).1 = (w.position index length s').1 := by
  obtain ⟨_, position⟩ := exists_position fixed
  rw [(position length s).1, (position length s').1]

/-- A position is below the length, and it is the same one below every length. -/
theorem position_unique (fixed : w.FixesPosition index) {length length' i j : Nat}
    (first : (w.position index length s).1 = .ok i) (again : (w.position index length' s').1 = .ok j) :
    i < length ∧ i = j := by
  obtain ⟨r, position⟩ := exists_position fixed
  rw [(position length s).1] at first
  rw [(position length' s').1] at again
  cases r with
  | error e => cases first
  | ok n =>
    have first : positionBelow length n = .ok i := first
    have again : positionBelow length' n = .ok j := again
    unfold positionBelow at first again
    split at first
    next below =>
      split at again
      next =>
        cases first
        cases again
        exact ⟨by omega, rfl⟩
      next => cases again
    next => cases first

/-! ## Contents of cells -/

/-- What was stored at a place of a cell is there, if the cell has the place. -/
theorem valueAt_put {heap : Heap} {i : Nat} (inside : i < ((heap.put h (.items ((heap.items h).set i v))).items h).length) :
    valueAt ((heap.put h (.items ((heap.items h).set i v))).items h) i = v := by
  have there : h < heap.size := by
    rw [← Heap.size_put heap h (.items ((heap.items h).set i v))]
    exact Heap.lt_size_of_mem_items (List.getElem_mem inside)
  rw [Heap.items_put_self there] at inside ⊢
  simp [valueAt, (List.length_set ▸ inside : i < (heap.items h).length)]

/-- To read an item is to read what is at the position of the index. -/
theorem getItem_of_position {i : Nat} (found : w.position index (s.heap.items h).length s = (.ok i, s')) :
    w.getItem h index s = (.ok (valueAt (s'.heap.items h) i), s') := by
  have step : w.getItem h index s
      = (w.position index (s.heap.items h).length >>= fun i => return valueAt (← Act.items h) i) s := rfl
  rw [step, bind_eq_bindCont, found]
  rfl

/-- What comes of storing an item. -/
theorem of_setItem_ok (written : w.setItem h index v s = (.ok (), s')) : ∃ i s₁,
    w.position index (s.heap.items h).length s = (.ok i, s₁)
      ∧ s' = { s₁ with heap := s₁.heap.put h (.items ((s₁.heap.items h).set i v)) } := by
  have step : w.setItem h index v s
      = (w.position index (s.heap.items h).length >>= fun i => do Act.setItems h ((← Act.items h).set i v)) s := rfl
  rw [step] at written
  obtain ⟨i, s₁, found, stored⟩ := of_bind_ok written
  cases stored
  exact ⟨i, s₁, found, rfl⟩

/-- What comes of storing an element of an array. -/
theorem of_setIndex_array {item : Ty} (written : w.setIndex (.array h item) index v s = (.ok (), s')) :
    ∃ i s₁ r s₂, w.position index (s.heap.items h).length s = (.ok i, s₁) ∧ w.convertTo item v s₁ = (.ok r, s₂)
      ∧ s' = { s₂ with heap := s₂.heap.put h (.items ((s₂.heap.items h).set i r)) } := by
  have step : w.setIndex (.array h item) index v s
      = (w.position index (s.heap.items h).length >>= fun i => do
          let r ← w.convertTo item v
          Act.setItems h ((← Act.items h).set i r)) s := rfl
  rw [step] at written
  obtain ⟨i, s₁, found, rest⟩ := of_bind_ok written
  obtain ⟨r, s₂, fitted, stored⟩ := of_bind_ok rest
  cases stored
  exact ⟨i, s₁, r, s₂, found, fitted, rfl⟩

/-! ## What is stored -/

/-- What comes of a value where it is made to fit a type, if there is one, with the heap as it is. -/
def Becomes (w : World) (heap : Heap) (t : Option Ty) (v r : Value) : Prop :=
  match t with
  | none => r = v
  | some t => ∃ trace after, w.convertTo t v ⟨heap, trace⟩ = (.ok r, after)

end World

/-- The type that values are made to fit when they are stored in a slot: the one that the class of the instance
declares. -/
def Classes.slotType? (cs : Classes) (receiver : Value) (name : String) : Option Ty :=
  match receiver with
  | .object _ c => (cs.property? c name).map fun p => cs.resolve receiver.runtimeType p.type
  | _ => none

/-- The type that values are made to fit when they are stored in an array. -/
def Value.itemType? : Value → Option Ty
  | array _ item => some item
  | _ => none

namespace World

variable {w : World} {receiver index v : Value} {name : String} {s s' : Store}

/-- A property is kept with the receiver: in a slot of an instance, or as an entry of a map. -/
inductive KeepsProperty (w : World) (heap : Heap) : Value → String → Prop
  | slot {h : Handle} {c : ClassRef} {name : String} {p : Property} {i : Nat}
      (found : w.classes.property? c name = some p) (kind : p.kind = .slot i) (inside : i < (heap.items h).length) :
      KeepsProperty w heap (.object h c) name
  | entry {h : Handle} (name : String) (there : h < heap.size) : KeepsProperty w heap (.map h) name

/-- What stands at an index is kept with the receiver: an item of a list, of an array that has the position, or an entry
of a map that can tell the key. -/
inductive KeepsIndex (w : World) (s : Store) : Value → Value → Prop
  | item (h : Handle) {index : Value} (fixed : w.FixesPosition index) : KeepsIndex w s (.list h) index
  | element {h : Handle} (item : Ty) {index : Value} {i : Nat} (fixed : w.FixesPosition index)
      (inside : (w.position index (s.heap.items h).length s).1 = .ok i) : KeepsIndex w s (.array h item) index
  | entry {h : Handle} {key : Value} (located : s.heap.Locates h key) : KeepsIndex w s (.map h) key

/-- **A property is read as it was stored**, in a slot as what came of the value that was given. -/
theorem getProperty_of_setProperty (written : w.setProperty receiver name v s = (.ok (), s'))
    (kept : w.KeepsProperty s'.heap receiver name) :
    ∃ r, w.Becomes s.heap (w.classes.slotType? receiver name) v r ∧ w.getProperty receiver name s' = (.ok r, s') := by
  cases kept with
  | @slot h c name p i found kind inside =>
    -- a write to a slot is a conversion to the type of the field and a store, and nothing else
    have step : w.setProperty (.object h c) name v s
        = (w.convertTo (w.classes.resolve (.raw c) p.type) v >>= Act.setSlot h i) s := by
      show w.setMember (.object h c) name v s = _
      unfold setMember
      have found : w.classes.property? (Value.object h c).classRef name = some p := found
      rw [found]
      dsimp only
      rw [kind]
      rfl
    rw [step] at written
    obtain ⟨r, s₁, fitted, stored⟩ := of_bind_ok written
    cases stored
    refine ⟨r, ?_, ?_⟩
    · unfold Becomes Classes.slotType?
      dsimp only
      rw [found]
      exact ⟨s.trace, s₁, fitted⟩
    · show w.getMember (.object h c) name _ = _
      unfold getMember
      have found : w.classes.property? (Value.object h c).classRef name = some p := found
      rw [found]
      dsimp only
      rw [kind]
      show (Except.ok _, _) = _
      rw [valueAt_put inside]
  | @entry h name there =>
    obtain ⟨old, s₁, put, done⟩ := of_bind_ok written
    cases done
    refine ⟨v, rfl, ?_⟩
    -- a text is no container, so that it is told from the other keys whatever the map holds
    have located : s'.heap.Locates h (.str name) := ⟨there, fun container => absurd rfl container⟩
    have step : w.getProperty (.map h) name s'
        = (Act.mapGet? h (.str name) >>= fun found => return found.getD .null) s' := rfl
    rw [step, bind_eq_bindCont, Act.mapGet?_of_mapPut put located]
    rfl

/-- An item is read as it was stored, if the cell still has the position. -/
theorem getItem_put (fixed : w.FixesPosition index) {heap : Heap} {h : Handle} {length i j : Nat}
    (found : (w.position index length s).1 = .ok i)
    (stored : s'.heap = heap.put h (.items ((heap.items h).set i v)))
    (inside : (w.position index (s'.heap.items h).length s').1 = .ok j) :
    ∃ s'', w.getItem h index s' = (.ok v, s'') := by
  obtain ⟨below, rfl⟩ := position_unique fixed inside found
  have found : w.position index (s'.heap.items h).length s'
      = (.ok j, (w.position index (s'.heap.items h).length s').2) := Prod.ext inside rfl
  have read := getItem_of_position found
  have there : valueAt (s'.heap.items h) j = v := by
    rw [stored] at below ⊢
    exact valueAt_put below
  rw [heap_position fixed, there] at read
  exact ⟨_, read⟩

/-- **What stands at an index is read as it was stored**, in an array as what came of the value that was given. -/
theorem getIndex_of_setIndex (written : w.setIndex receiver index v s = (.ok (), s'))
    (kept : w.KeepsIndex s' receiver index) :
    ∃ r s'', w.Becomes s.heap receiver.itemType? v r ∧ w.getIndex receiver index s' = (.ok r, s'') := by
  cases kept with
  | item h fixed =>
    obtain ⟨i, s₁, found, done⟩ := of_setItem_ok written
    -- a fixed position does not depend on the state, but for the length of the list, which the write leaves as it is
    have first : (w.position index (s.heap.items h).length s).1 = .ok i := congrArg Prod.fst found
    have same : s₁.heap = s.heap := by
      rw [← heap_position fixed _ s, found]
    have stored : s'.heap = s.heap.put h (.items ((s.heap.items h).set i v)) := by
      rw [done, same]
    have there : h < s.heap.size :=
      Heap.lt_size_of_mem_items (List.getElem_mem (position_unique fixed first first).1)
    have long : (s'.heap.items h).length = (s.heap.items h).length := by
      rw [stored, Heap.items_put_self there, List.length_set]
    have inside := (position_congr fixed (s'.heap.items h).length s' s).trans (long ▸ first)
    obtain ⟨s'', read⟩ := getItem_put fixed first stored inside
    exact ⟨v, s'', rfl, read⟩
  | element item fixed inside =>
    obtain ⟨i, s₁, r, s₂, found, fitted, done⟩ := of_setIndex_array written
    have same : s₁.heap = s.heap := by
      rw [← heap_position fixed _ s, found]
    have first := congrArg Prod.fst found
    have stored := congrArg Store.heap done
    obtain ⟨s'', read⟩ := getItem_put fixed first stored inside
    refine ⟨r, s'', ⟨s₁.trace, s₂, ?_⟩, read⟩
    rw [← same]
    exact fitted
  | entry located =>
    obtain ⟨old, s₁, put, done⟩ := of_bind_ok written
    cases done
    refine ⟨v, s', rfl, ?_⟩
    have step (h : Handle) : w.getIndex (.map h) index s'
        = (Act.mapGet? h index >>= fun found => return found.getD .null) s' := rfl
    rw [step, bind_eq_bindCont, Act.mapGet?_of_mapPut put located]
    rfl

end World

end HostExpr
