import HostExpr.Member.Access
import HostExpr.Proofs.Class.Layout
import HostExpr.World.Body

/-!
# Slots of instances

The values of an instance are in its slots, and as long as it is there it has as many as its class says
(`Instance.slots`). No two properties share a slot, so storing a value under a name does nothing to the others. A class
leaves the slots that it inherits where they are, so what addresses them on instances of its superclass does so on its
own: `Classes.Built.slots_apart`.

A field constructor stores its arguments under the names that it lists, but does not look names up as a read does: it
passes over the computed properties of its class. The two find the same slot unless such a property hides a field:
`Draft.Built.constructed_reads`.
-/

namespace HostExpr

/-- There is an instance of the class behind the handle. It starts with the values that the class gives, and then values
are stored into its slots while the rest of the heap changes in any way. -/
inductive Instance (cs : Classes) (c : ClassRef) : Handle → Heap → Prop
  | new (heap : Heap) : Instance cs c heap.size (heap.alloc (.items (cs.get c).slotDefaults)).2
  | store {h : Handle} {heap : Heap} (hi : Instance cs c h heap) (i : Nat) (v : Value) :
    Instance cs c h (heap.put h (.items ((heap.items h).set i v)))
  | elsewhere {h : Handle} {heap heap' : Heap} (hi : Instance cs c h heap) (same : heap'.cells[h]? = heap.cells[h]?) :
    Instance cs c h heap'

/-- Values some of which are replaced, one after the other. -/
def replaced (vs : List Value) (pairs : List (Nat × Value)) : List Value :=
  pairs.foldl (fun vs (i, v) => vs.set i v) vs

section

variable {cs : Classes} {c d : ClassRef} {h : Handle} {heap : Heap} {p q : String} {i j : Nat}

namespace Instance

/-- An instance has as many slots as its class says. -/
theorem slots (hi : Instance cs c h heap) : ∃ vs, heap.cells[h]? = some (.items vs) ∧ vs.length = cs.slotCount c := by
  induction hi with
  | new heap => exact ⟨_, by simp [Heap.alloc, Heap.size], rfl⟩
  | @store h heap _ i v ih =>
    obtain ⟨vs, there, length⟩ := ih
    have inside : h < heap.cells.size := (Array.getElem?_eq_some_iff.1 there).1
    have items : heap.items h = vs := by
      unfold Heap.items
      rw [there]
    refine ⟨vs.set i v, ?_, by rw [List.length_set, length]⟩
    rw [items]
    simp [Heap.put, inside]
  | elsewhere _ same ih =>
    rw [same]
    exact ih

theorem lt_size (hi : Instance cs c h heap) : h < heap.size := by
  obtain ⟨vs, there, -⟩ := hi.slots
  exact (Array.getElem?_eq_some_iff.1 there).1

theorem length_items (hi : Instance cs c h heap) : (heap.items h).length = cs.slotCount c := by
  obtain ⟨vs, there, length⟩ := hi.slots
  unfold Heap.items
  rw [there]
  exact length

/-- To store a value by name, here or elsewhere, leaves an instance one. -/
theorem putSlot (hi : Instance cs c h heap) (owner : Value) (field : String) (v : Value) :
    Instance cs c h (heap.putSlot cs owner field v).2 := by
  unfold Heap.putSlot
  split
  · rename_i k i _
    by_cases here : k = h
    · subst here
      exact hi.store i v
    · exact hi.elsewhere (by simp [Heap.put, here])
  · exact hi

/-- What a host makes of some fields is an instance. -/
theorem newInstance (heap : Heap) (cs : Classes) (c : ClassRef) (fields : List (String × Value)) :
    Instance cs c heap.size (heap.newInstance cs c fields).2 := by
  unfold Heap.newInstance
  dsimp only
  generalize made : (heap.alloc (.items (cs.get c).slotDefaults)).2 = later
  have hi : Instance cs c heap.size later := made ▸ .new heap
  clear made
  induction fields generalizing later with
  | nil => exact hi
  | cons field fields ih => exact ih _ (hi.putSlot _ _ _)

/-- Values are stored into the slots of an instance one after the other. -/
theorem forM_setSlot (s : Store) (hi : Instance cs c h s.heap) (pairs : List (Nat × Value)) :
    ∃ s', (pairs.forM fun (i, v) => Act.setSlot h i v) s = (.ok (), s') ∧ Instance cs c h s'.heap ∧
      s'.heap.items h = replaced (s.heap.items h) pairs := by
  induction pairs generalizing s with
  | nil => exact ⟨s, rfl, hi, rfl⟩
  | cons pair pairs ih =>
    obtain ⟨s', run, hi', items⟩ :=
      ih { s with heap := s.heap.put h (.items ((s.heap.items h).set pair.1 pair.2)) } (hi.store pair.1 pair.2)
    refine ⟨s', run, hi', items.trans ?_⟩
    show replaced ((s.heap.put h _).items h) pairs = _
    rw [Heap.items_put_self hi.lt_size]
    rfl

/-- What a field constructor makes is an instance with its arguments in the slots. -/
theorem invoke_initSlots (w : World) (c : ClassRef) (slots : List Nat) (args : List Value) (s : Store) :
    ∃ s', w.invoke (.initSlots slots) (.cls c) args s = (.ok (.object s.heap.size c), s') ∧
      Instance w.classes c s.heap.size s'.heap ∧
      s'.heap.items s.heap.size = replaced (w.classes.get c).slotDefaults (slots.zip args) := by
  -- the instance starts with the defaults, and the arguments are then stored one after the other
  have made : Instance w.classes c s.heap.size (s.heap.alloc (.items (w.classes.get c).slotDefaults)).2 := .new s.heap
  have fresh : (s.heap.alloc (.items (w.classes.get c).slotDefaults)).2.items s.heap.size
      = (w.classes.get c).slotDefaults := by
    simp [Heap.alloc, Heap.items, Heap.size]
  obtain ⟨s', stored, hi, items⟩ := forM_setSlot { s with heap := _ } made (slots.zip args)
  have run : w.run (.cls c) args (.initSlots slots) s = (.ok (.object s.heap.size c), s') := by
    have step : w.run (.cls c) args (.initSlots slots) s
        = ((do
            (slots.zip args).forM fun (i, v) => Act.setSlot s.heap.size i v
            return .object s.heap.size c : Act Value)
          { s with heap := (s.heap.alloc (.items (w.classes.get c).slotDefaults)).2 }) := rfl
    rw [step, bind_eq_bindCont, stored]
    rfl
  have invoked : w.invoke (.initSlots slots) (.cls c) args s = (.ok (.object s.heap.size c),
      { s' with trace := .ran (.initSlots slots) (.cls c) args (.ok (.object s.heap.size c)) :: s'.trace }) := by
    unfold World.invoke
    rw [run]
  exact ⟨_, invoked, hi, by rw [items, fresh]⟩

end Instance

theorem slotNamed?_object (cs : Classes) (h : Handle) (c : ClassRef) (name : String) :
    slotNamed? cs (.object h c) name = (cs.slot? c name).map (h, ·) := by
  unfold slotNamed? Classes.slot? Property.slot?
  dsimp only
  cases cs.property? c name with
  | none => rfl
  | some P =>
    dsimp only [Option.map_some, Option.bind_some]
    cases P.kind <;> rfl

theorem getSlot?_object (hi : cs.slot? c p = some i) (heap : Heap) (h : Handle) :
    heap.getSlot? cs (.object h c) p = some (valueAt (heap.items h) i) := by
  simp [Heap.getSlot?, slotNamed?_object, hi]

theorem putSlot_object (hi : cs.slot? c p = some i) (heap : Heap) (h : Handle) (v : Value) :
    heap.putSlot cs (.object h c) p v = (true, heap.put h (.items ((heap.items h).set i v))) := by
  simp [Heap.putSlot, slotNamed?_object, hi]

/-- What was stored under a name is read under it. -/
theorem Instance.getSlot?_put (hi : Instance cs c h heap) (inside : i < cs.slotCount c) (hp : cs.slot? c p = some i)
    (v : Value) : (heap.put h (.items ((heap.items h).set i v))).getSlot? cs (.object h c) p = some v := by
  have inside : i < (heap.items h).length := by
    rw [hi.length_items]
    exact inside
  rw [getSlot?_object hp, Heap.items_put_self hi.lt_size]
  simp [valueAt, inside]

/-- What is stored into another slot makes no difference. -/
theorem Instance.getSlot?_put_of_ne (hi : Instance cs c h heap) (apart : i ≠ j) (hq : cs.slot? c q = some j)
    (v : Value) : (heap.put h (.items ((heap.items h).set i v))).getSlot? cs (.object h c) q
      = heap.getSlot? cs (.object h c) q := by
  rw [getSlot?_object hq, getSlot?_object hq, Heap.items_put_self hi.lt_size]
  simp [valueAt, apart]

/-- Slots do not overlap. Two names that stand for slots of an instance stand for different ones, and to store a value
under one of them does nothing to the other. A slot that a name stands for in a superclass is a slot of every instance,
and of no other property. It is the one that the name stands for in the class itself, unless a class below the
superclass has a property of that name. -/
theorem Classes.Built.slots_apart (hb : cs.Built) (hi : Instance cs c h heap) :
    (∀ p q i j, p ≠ q → cs.slot? c p = some i → cs.slot? c q = some j →
      i ≠ j ∧ i < cs.slotCount c ∧ j < cs.slotCount c ∧
      ∀ v, ∃ heap', heap.putSlot cs (.object h c) p v = (true, heap') ∧
        heap'.getSlot? cs (.object h c) p = some v ∧
        heap'.getSlot? cs (.object h c) q = heap.getSlot? cs (.object h c) q) ∧
    (∀ d ∈ cs.lineage c, ∀ p P k, cs.property? d p = some P → P.slot? = some k →
      k < (heap.items h).length ∧
      (∀ q Q, cs.property? c q = some Q → Q.slot? = some k → Q = P) ∧
      ((∀ e ∈ cs.lineage c, p ∈ (cs.get e).properties.map Property.name → e ∈ cs.lineage d) →
        cs.slot? c p = some k ∧ heap.getSlot? cs (.object h c) p = (heap.items h)[k]?)) := by
  constructor
  · intro p q i j other hp hq
    have apart : i ≠ j := hb.slot?_ne other hp hq
    have below : i < cs.slotCount c := hb.slot?_lt hp
    refine ⟨apart, below, hb.slot?_lt hq, fun v => ⟨_, putSlot_object hp heap h v, ?_, ?_⟩⟩
    · exact hi.getSlot?_put below hp v
    · exact hi.getSlot?_put_of_ne apart hq v
  · intro d hd p P k found slot
    -- a class continues the slots of its superclasses, and an instance has an item for each slot of its class
    have inside : k < (heap.items h).length := by
      have below : k < cs.slotCount d := hb.slot_lt (mem_of_property? found) slot
      rw [hi.length_items]
      exact Nat.lt_of_lt_of_le below (hb.inherits hd).length_le
    refine ⟨inside, ?_, ?_⟩
    · intro q Q foundQ slotQ
      have inherited : P ∈ cs.properties c := hb.mem_properties hd (mem_of_property? found)
      exact hb.eq_of_slot (mem_of_property? foundQ) inherited slotQ slot
    · intro unhidden
      have here : cs.slot? c p = some k := by
        unfold slot?
        rw [hb.property?_inherited hd unhidden, found]
        exact slot
      refine ⟨here, ?_⟩
      rw [getSlot?_object here, List.getElem?_eq_getElem inside]
      simp [valueAt, inside]

/-- A class with a field. -/
def oneField : ClassRef × Classes :=
  Classes.builtinOnly.define ((Draft.ofName "Base" none).field "id" (.raw (.builtin .integer)) .null)

/-- The class, and one that extends it with another field. -/
def twoFields : Classes :=
  let derived := Draft.extending oneField.2 (.ofName "Derived" none) oneField.1
  (oneField.2.define (derived.field "name" (.raw (.builtin .string)) .null)).2

/-- An instance of the second class keeps the inherited field and its own apart, the inherited one where the superclass
has it. -/
theorem slots_apart_twoFields :
    twoFields.Built ∧ ∃ heap, Instance twoFields (.host 1) 0 heap ∧
      (∀ v, ∃ heap', heap.putSlot twoFields (.object 0 (.host 1)) "id" v = (true, heap') ∧
        heap'.getSlot? twoFields (.object 0 (.host 1)) "id" = some v ∧
        heap'.getSlot? twoFields (.object 0 (.host 1)) "name"
          = heap.getSlot? twoFields (.object 0 (.host 1)) "name") ∧
      twoFields.slot? (.host 0) "id" = some 0 ∧
      heap.getSlot? twoFields (.object 0 (.host 1)) "id" = (heap.items 0)[0]? := by
  have base : oneField.2.Built := .define .builtinOnly (.field (.ofName _ _) _ _ _)
  have known : oneField.1.Before oneField.2.defs.length := Nat.zero_lt_one
  have built : twoFields.Built := .define base (.field (.extending (.ofName _ _) rfl known) _ _ _)
  have hi : Instance twoFields (.host 1) 0 _ := .newInstance .empty twoFields (.host 1) [("id", .int 7)]
  obtain ⟨apart, inherited⟩ := Classes.Built.slots_apart built hi
  have stays := (inherited (.host 0) (by decide) "id" _ 0 rfl rfl).2.2
  exact ⟨built, _, hi, (apart "id" "name" 0 1 (by decide) rfl rfl).2.2.2, rfl, (stays (by decide)).2⟩

end

/-! ## Where a field constructor stores its arguments -/

namespace Draft

/-- A computed property of the class hides a field of its name, one that the class adds later or one that it
inherits. -/
def Hides (cs : Classes) (d : Draft) (name : String) : Prop :=
  (∃ P, d.properties.find? (·.name = name) = some P ∧ P.slot? = none) ∧
  ((∃ P ∈ d.properties, P.name = name ∧ P.slot?.isSome) ∨ ∃ s, d.super? = some s ∧ (cs.slot? s name).isSome)

/-- The names of a field constructor that get an argument, in order, each with the slot that the argument goes to. -/
def stored (cs : Classes) (d : Draft) (names : List String) : List (String × Nat) :=
  names.filterMap fun name => (d.slotOf? cs name).map fun slot => (name, slot.1)

variable {cs later : Classes} {d : Draft} {s : ClassRef} {name : String} {names : List String} {i : Nat}

theorem code_fieldConstructorOf (cs : Classes) (d : Draft) (names : List String) :
    (d.fieldConstructorOf cs names).code = .initSlots ((d.stored cs names).map Prod.snd) := by
  show Code.initSlots _ = Code.initSlots _
  congr 1
  unfold stored
  induction names with
  | nil => rfl
  | cons name names ih => cases h : d.slotOf? cs name <;> simp_all

theorem arity_fieldConstructorOf (cs : Classes) (d : Draft) (names : List String) :
    (d.fieldConstructorOf cs names).arity = (d.stored cs names).length := by
  show ((names.filterMap (d.slotOf? cs)).map Prod.snd).length = _
  unfold stored
  induction names with
  | nil => rfl
  | cons name names ih => cases h : d.slotOf? cs name <;> simp_all

theorem mem_stored : (name, i) ∈ d.stored cs names ↔ name ∈ names ∧ (d.slotOf? cs name).map Prod.fst = some i := by
  simp only [stored, List.mem_filterMap, Option.map_eq_some_iff, Prod.mk.injEq]
  constructor
  · rintro ⟨_, listed, slot, found, rfl, rfl⟩
    exact ⟨listed, slot, found, rfl⟩
  · rintro ⟨listed, slot, found, rfl⟩
    exact ⟨name, listed, slot, found, rfl, rfl⟩

end Draft

/-- The first of the fields that are placed from `k` on, by its name. -/
theorem find?_placed (k : Nat) (fields : List (String × TypeRef)) (name : String) :
    ((placed k fields).find? (·.name = name)).bind Property.slot? = (fields.findIdx? (·.1 = name)).map (k + ·) := by
  induction fields generalizing k with
  | nil => rfl
  | cons field fields ih =>
    have step : placed k (field :: fields) = ⟨field.1, field.2, .slot k⟩ :: placed (k + 1) fields := by
      simp [placed, List.mapIdx_cons, Nat.add_assoc, Nat.add_comm 1]
    rw [step, List.find?_cons, List.findIdx?_cons]
    by_cases here : field.1 = name
    · simp [here, Property.slot?]
    · simp only [here, decide_false, ih]
      cases fields.findIdx? (·.1 = name) <;> simp [Nat.add_assoc, Nat.add_comm 1]

theorem isSome_lookup_eq_isSome_findIdx? (fields : List (String × TypeRef)) (name : String) :
    (fields.lookup name).isSome = (fields.findIdx? (·.1 = name)).isSome := by
  induction fields with
  | nil => rfl
  | cons field fields ih =>
    rw [List.lookup_cons, List.findIdx?_cons]
    by_cases here : field.1 = name
    · simp [here]
    · have other : (name == field.1) = false := by simpa using Ne.symm here
      simp [here, other, ih]

/-- The slot of the first field of a name. -/
def fieldSlot? (properties : List Property) (name : String) : Option Nat :=
  ((properties.filter (·.slot?.isSome)).find? (·.name = name)).bind Property.slot?

section

variable {properties : List Property} {P : Property} {name : String}

/-- If the first property of a name is a field, it is the first field of the name. -/
theorem fieldSlot?_of_find? (first : properties.find? (·.name = name) = some P) (field : P.slot?.isSome) :
    fieldSlot? properties name = P.slot? := by
  obtain ⟨named, before, after, rfl, others⟩ := List.find?_eq_some_iff_append.1 first
  have none : (before.filter (·.slot?.isSome)).find? (·.name = name) = none := by
    refine List.find?_eq_none.2 fun Q hQ => ?_
    simpa using others Q (List.mem_filter.1 hQ).1
  have named : P.name = name := of_decide_eq_true named
  have kept : (P :: after).filter (·.slot?.isSome) = P :: after.filter (·.slot?.isSome) := by simp [field]
  unfold fieldSlot?
  rw [List.filter_append, kept, List.find?_append, none, Option.none_or, List.find?_cons, decide_eq_true named]
  rfl

/-- There is a first field of a name just if there is a field of the name. -/
theorem isSome_fieldSlot?_iff :
    (fieldSlot? properties name).isSome ↔ ∃ P ∈ properties, P.name = name ∧ P.slot?.isSome := by
  unfold fieldSlot?
  constructor
  · intro found
    obtain ⟨i, found⟩ := Option.isSome_iff_exists.1 found
    obtain ⟨P, first, slot⟩ := Option.bind_eq_some_iff.1 found
    have named := List.find?_some first
    exact ⟨P, (List.mem_filter.1 (List.mem_of_find?_eq_some first)).1, of_decide_eq_true named,
      Option.isSome_iff_exists.2 ⟨i, slot⟩⟩
  · rintro ⟨P, hP, named, field⟩
    have listed : P ∈ properties.filter (·.slot?.isSome) := List.mem_filter.2 ⟨hP, field⟩
    have found : ((properties.filter (·.slot?.isSome)).find? (·.name = name)).isSome :=
      List.find?_isSome.2 ⟨P, listed, decide_eq_true named⟩
    obtain ⟨Q, first⟩ := Option.isSome_iff_exists.1 found
    rw [first]
    exact (List.mem_filter.1 (List.mem_of_find?_eq_some first)).2

theorem exists_of_fieldSlot? {i : Nat} (h : fieldSlot? properties name = some i) :
    ∃ P ∈ properties, P.name = name ∧ P.slot? = some i := by
  obtain ⟨P, first, slot⟩ := Option.bind_eq_some_iff.1 h
  have named := List.find?_some first
  exact ⟨P, (List.mem_filter.1 (List.mem_of_find?_eq_some first)).1, of_decide_eq_true named, slot⟩

end

namespace Draft

variable {cs later : Classes} {d : Draft} {s : ClassRef} {p q : String} {i j : Nat} {names : List String}

/-- A field constructor finds the first field of a name in the class itself, and otherwise what the superclass has under
the name. It passes over the computed properties of the class itself. -/
theorem LaidOut.slotOf?_eq (h : d.LaidOut cs s) (p : String) :
    (d.slotOf? cs p).map Prod.fst = (fieldSlot? d.properties p).or (cs.slot? s p) := by
  unfold fieldSlot?
  rw [h.fields, find?_placed]
  have base : d.inheritedSlots = cs.slotCount s := by
    unfold inheritedSlots
    rw [h.length_slotDefaults, Nat.add_sub_cancel]
  -- an own field has a type just if it has a slot, so that the two look-ups by name go together
  have both := isSome_lookup_eq_isSome_findIdx? d.ownSlots p
  have inherited : (d.super?.bind (cs.property? · p)) = cs.property? s p := by rw [h.super, Option.bind_some]
  unfold slotOf?
  rw [inherited, base]
  cases found : d.ownSlots.findIdx? (·.1 = p) with
  | some i =>
    rw [found] at both
    obtain ⟨type, typed⟩ := Option.isSome_iff_exists.1 both
    simp [typed]
  | none =>
    unfold Classes.slot?
    cases cs.property? s p with
    | none => simp
    | some P => cases hk : P.kind <;> simp [Property.slot?, hk]

/-- A class that was defined has its own properties in front of those of its superclass, whatever is defined later. -/
theorem LaidOut.properties_define (h : d.LaidOut cs s) (hcs : cs.Built) (more : (cs.define d).2.defs <+: later.defs) :
    later.properties (.host cs.defs.length) = d.properties ++ cs.properties s := by
  have before : s.Before cs.defs.length := h.known
  have here : later.get (.host cs.defs.length) = d.finish cs := Classes.get_of_defined more
  have super : (later.get (.host cs.defs.length)).super? = some s := by
    rw [here]
    exact h.super
  have old : cs.defs <+: later.defs := (List.prefix_append _ _).trans more
  unfold Classes.properties
  rw [← hcs.ancestry_of_grown old before]
  unfold Classes.ancestry
  rw [Classes.lineage_host super before, List.map_cons, List.flatMap_cons, here]
  rfl

/-- A name is looked up among the properties of the class itself, and otherwise on its superclass. -/
theorem LaidOut.slot?_define (h : d.LaidOut cs s) (hcs : cs.Built) (more : (cs.define d).2.defs <+: later.defs)
    (p : String) : later.slot? (.host cs.defs.length) p
      = match d.properties.find? (·.name = p) with
        | some P => P.slot?
        | none => cs.slot? s p := by
  unfold Classes.slot?
  rw [Classes.property?_eq_find?, h.properties_define hcs more, List.find?_append, ← Classes.property?_eq_find?]
  cases d.properties.find? (·.name = p) <;> rfl

/-- What a field constructor finds under a name is what looking the name up on the class gives, unless a computed
property hides a field. -/
theorem LaidOut.slotOf?_eq_slot?_iff (h : d.LaidOut cs s) (hcs : cs.Built)
    (more : (cs.define d).2.defs <+: later.defs) (p : String) :
    (d.slotOf? cs p).map Prod.fst = later.slot? (.host cs.defs.length) p ↔ ¬ d.Hides cs p := by
  rw [h.slotOf?_eq, h.slot?_define hcs more]
  unfold Hides
  rw [h.super, ← isSome_fieldSlot?_iff]
  cases first : d.properties.find? (·.name = p) with
  | none =>
    -- a name that is new to the class means what it means in the superclass
    have fieldless : fieldSlot? d.properties p = none := by
      refine Option.not_isSome_iff_eq_none.1 fun found => ?_
      obtain ⟨P, hP, named, -⟩ := isSome_fieldSlot?_iff.1 found
      exact List.find?_eq_none.1 first P hP (decide_eq_true named)
    simp [fieldless]
  | some P =>
    cases slot : P.slot? with
    | some i =>
      have same := fieldSlot?_of_find? first (by rw [slot]; rfl)
      simp [same, slot]
    | none =>
      cases fieldSlot? d.properties p <;> cases inherited : cs.slot? s p <;> simp [slot, inherited]

/-- Whatever a field constructor finds under a name is the slot of a property of that name. -/
theorem LaidOut.exists_of_slotOf? (h : d.LaidOut cs s) (found : (d.slotOf? cs p).map Prod.fst = some i) :
    ∃ P ∈ d.properties ++ cs.properties s, P.name = p ∧ P.slot? = some i := by
  rw [h.slotOf?_eq, Option.or_eq_some_iff] at found
  rcases found with own | ⟨-, inherited⟩
  · obtain ⟨P, hP, named, slot⟩ := exists_of_fieldSlot? own
    exact ⟨P, List.mem_append_left _ hP, named, slot⟩
  · obtain ⟨P, found, slot⟩ := Option.bind_eq_some_iff.1 inherited
    exact ⟨P, List.mem_append_right _ (Classes.mem_of_property? found), Classes.name_of_property? found, slot⟩

section

variable (h : d.LaidOut cs s) (hcs : cs.Built) (more : (cs.define d).2.defs <+: later.defs)

include h hcs more

theorem LaidOut.slot?_of_hides (hides : d.Hides cs p) : later.slot? (.host cs.defs.length) p = none := by
  obtain ⟨⟨P, first, computed⟩, -⟩ := hides
  rw [h.slot?_define hcs more, first]
  exact computed

theorem LaidOut.not_hides (hp : later.slot? (.host cs.defs.length) p = some i) : ¬ d.Hides cs p := by
  intro hides
  rw [h.slot?_of_hides hcs more hides] at hp
  cases hp

theorem LaidOut.slot?_eq (p : String) :
    (cs.define d).2.slot? (.host cs.defs.length) p = later.slot? (.host cs.defs.length) p := by
  rw [h.slot?_define hcs List.prefix_rfl, h.slot?_define hcs more]

theorem LaidOut.mem_stored_iff (hp : p ∈ names) :
    (∀ i, (p, i) ∈ d.stored cs names ↔ later.slot? (.host cs.defs.length) p = some i) ↔ ¬ d.Hides cs p := by
  rw [← h.slotOf?_eq_slot?_iff hcs more, Option.ext_iff]
  simp only [mem_stored, hp, true_and]

/-- Of two names, one that gets an argument and one that stands for a slot, the slots are the same just if the names
are. -/
theorem LaidOut.eq_iff_of_stored (built : (cs.define d).2.Built) (hq : (q, j) ∈ d.stored cs names)
    (hp : later.slot? (.host cs.defs.length) p = some i) : q = p ↔ j = i := by
  have found := (mem_stored.1 hq).2
  constructor
  · rintro rfl
    rw [(h.slotOf?_eq_slot?_iff hcs more q).2 (h.not_hides hcs more hp), hp] at found
    exact (Option.some.inj found).symm
  · rintro rfl
    obtain ⟨Q, hQ, rfl, slotQ⟩ := h.exists_of_slotOf? found
    obtain ⟨P, foundP, slotP⟩ := Option.bind_eq_some_iff.1 hp
    have hP := Classes.mem_of_property? foundP
    rw [h.properties_define hcs more] at hP
    -- the slots of the class do not depend on what is defined later
    rw [← h.properties_define hcs List.prefix_rfl] at hP hQ
    rw [built.eq_of_slot hQ hP slotQ slotP]
    exact Classes.name_of_property? foundP

/-- A hidden field gets its argument, but no name stands for it. -/
theorem LaidOut.stored_of_hides (built : (cs.define d).2.Built) (hp : p ∈ names) (hides : d.Hides cs p) :
    ∃ i, (p, i) ∈ d.stored cs names ∧ ∀ q, later.slot? (.host cs.defs.length) q ≠ some i := by
  have field : ((d.slotOf? cs p).map Prod.fst).isSome := by
    rw [h.slotOf?_eq, Option.isSome_or, Bool.or_eq_true, isSome_fieldSlot?_iff]
    refine hides.2.imp_right ?_
    rintro ⟨s', super, inherited⟩
    rw [h.super] at super
    cases super
    exact inherited
  obtain ⟨i, found⟩ := Option.isSome_iff_exists.1 field
  have stored : (p, i) ∈ d.stored cs names := mem_stored.2 ⟨hp, found⟩
  refine ⟨i, stored, fun q hq => ?_⟩
  obtain rfl := (h.eq_iff_of_stored hcs more built stored hq).2 rfl
  rw [h.slot?_of_hides hcs more hides] at hq
  cases hq

end

end Draft

/-! ## What is read afterwards -/

theorem Table.isSome_get?_ofPairs {α : Type} (pairs : List (String × α)) (name : String) :
    ((Table.ofPairs pairs).get? name).isSome ↔ name ∈ pairs.map Prod.fst := by
  induction pairs using List.reverseRecOn with
  | nil => simp [Table.ofPairs, Table.get?]
  | append_singleton pairs pair ih =>
    have last : Table.ofPairs (pairs ++ [pair]) = (Table.ofPairs pairs).put pair.1 pair.2 := by
      simp [Table.ofPairs]
    rw [last, Table.get?_put, List.map_append, List.mem_append, ← ih]
    by_cases here : name = pair.1 <;> simp [here]

/-- Where names and slots go together, the value in the slot of a name is the last one for the name. -/
theorem getElem?_replaced (vs : List Value) (triples : List ((String × Nat) × Value)) {name : String} {i : Nat}
    (inside : i < vs.length) (apart : ∀ t ∈ triples, t.1.1 = name ↔ t.1.2 = i) :
    (replaced vs (triples.map (Prod.map Prod.snd id)))[i]?
      = some (((Table.ofPairs (triples.map (Prod.map Prod.fst id))).get? name).getD (valueAt vs i)) := by
  -- from the back, since the last write to a slot and the last entry for a name are the ones that count
  induction triples using List.reverseRecOn with
  | nil => simp [replaced, Table.ofPairs, Table.get?, valueAt, inside]
  | append_singleton triples t ih =>
    have earlier := ih fun u hu => apart u (List.mem_append_left _ hu)
    have here : t.1.1 = name ↔ t.1.2 = i := apart t (List.mem_append_right _ (List.mem_singleton_self t))
    have stays : i < (replaced vs (triples.map (Prod.map Prod.snd id))).length :=
      (List.getElem?_eq_some_iff.1 earlier).1
    have values : replaced vs ((triples ++ [t]).map (Prod.map Prod.snd id))
        = (replaced vs (triples.map (Prod.map Prod.snd id))).set t.1.2 t.2 := by
      simp [replaced]
    have table : Table.ofPairs ((triples ++ [t]).map (Prod.map Prod.fst id))
        = (Table.ofPairs (triples.map (Prod.map Prod.fst id))).put t.1.1 t.2 := by
      simp [Table.ofPairs]
    rw [values, table, Table.get?_put]
    by_cases same : t.1.2 = i
    · rw [if_pos (here.2 same).symm, same]
      simp [stays]
    · have other : ¬ name = t.1.1 := fun e => same (here.1 e.symm)
      rw [if_neg other, List.getElem?_set_ne same, earlier]

/-- Where names and slots go together, the value in the slot of a name is the last argument for the name. -/
theorem valueAt_replaced {vs args : List Value} {stored : List (String × Nat)} {name : String} {i : Nat}
    (inside : i < vs.length) (apart : ∀ p ∈ stored, p.1 = name ↔ p.2 = i) :
    valueAt (replaced vs ((stored.map Prod.snd).zip args)) i
      = ((Table.ofPairs ((stored.map Prod.fst).zip args)).get? name).getD (valueAt vs i) := by
  have together := getElem?_replaced vs (stored.zip args) inside fun t ht => apart t.1 (List.of_mem_zip ht).1
  unfold valueAt at together ⊢
  rw [List.zip_map_left, List.zip_map_left, together]
  rfl

/-- A slot is read by the name that stands for it. -/
theorem World.getProperty_slot {w : World} {c : ClassRef} {p : String} {i : Nat} (hp : w.classes.slot? c p = some i)
    (h : Handle) (s : Store) :
    w.getProperty (.object h c) p s = (.ok (valueAt (s.heap.items h) i), s) := by
  obtain ⟨P, found, slot⟩ := Option.bind_eq_some_iff.1 hp
  have step : w.getProperty (.object h c) p = w.getMember (.object h c) p := rfl
  have of_class : w.classes.property? (Value.object h c).classRef p = some P := found
  rw [step]
  unfold World.getMember
  rw [of_class]
  dsimp only
  rw [Property.kind_eq_slot slot]
  rfl

variable {cs : Classes} {d : Draft}

/-- A field constructor stores an argument for a name into the slot that looking the name up on the class gives, and
only then, unless a computed property of the class hides a field of the name. In that case it stores the argument all
the same, into the slot of the hidden field, which no name stands for. Right after construction each field reads the
last argument for its name, and its default if there is none. -/
theorem Draft.Built.constructed_reads (hcs : cs.Built) (hd : d.Built cs) (w : World)
    (more : (cs.define d).2.defs <+: w.classes.defs) (names : List String) (listed : names ∈ d.fieldConstructors) :
    let c := (cs.define d).1
    let constructor := d.fieldConstructorOf cs names
    let stored := d.stored cs names
    constructor ∈ (w.classes.get c).constructors ∧ constructor.code = .initSlots (stored.map Prod.snd) ∧
    (∀ p ∈ names, (∀ i, (p, i) ∈ stored ↔ w.classes.slot? c p = some i) ↔ ¬ d.Hides cs p) ∧
    (∀ p ∈ names, d.Hides cs p → ∃ i, (p, i) ∈ stored ∧ ∀ q, w.classes.slot? c q ≠ some i) ∧
    ∀ args s, args.length = constructor.arity →
      ∃ s', w.invoke constructor.code (.cls c) args s = (.ok (.object s.heap.size c), s') ∧
        ∀ p i, w.classes.slot? c p = some i →
          let bound := (Table.ofPairs ((stored.map Prod.fst).zip args)).get? p
          w.getProperty (.object s.heap.size c) p s'
            = (.ok (bound.getD (valueAt (w.classes.get c).slotDefaults i)), s') ∧
          (p ∈ names → bound.isSome) := by
  intro c constructor stored
  obtain ⟨s, laid⟩ := hd.laidOut
  have here : w.classes.get c = d.finish cs := Classes.get_of_defined more
  have built : (cs.define d).2.Built := .define hcs hd
  have code := code_fieldConstructorOf cs d names
  refine ⟨?_, code, fun p hp => laid.mem_stored_iff hcs more hp,
    fun p hp hides => laid.stored_of_hides hcs more built hp hides, fun args s full => ?_⟩
  · rw [here]
    exact List.mem_append_right _ (List.mem_map_of_mem listed)
  · rw [arity_fieldConstructorOf] at full
    obtain ⟨s', made, -, items⟩ := Instance.invoke_initSlots w c (stored.map Prod.snd) args s
    rw [code]
    refine ⟨s', made, fun p i hp => ⟨?_, fun hn => ?_⟩⟩
    · have inside : i < (w.classes.get c).slotDefaults.length := by
        have lt : i < (cs.define d).2.slotCount c := built.slot?_lt ((laid.slot?_eq hcs more p).trans hp)
        have same : w.classes.get c = (cs.define d).2.get c := here.trans (Classes.get_define_length cs d).symm
        rw [same]
        exact lt
      -- an argument is looked up by its name but stored by its slot; for a name that stands for a slot it is the same
      have apart : ∀ a ∈ stored, a.1 = p ↔ a.2 = i := fun a ha => laid.eq_iff_of_stored hcs more built ha hp
      rw [World.getProperty_slot hp, items, valueAt_replaced inside apart]
    · have unhidden : ¬ d.Hides cs p := laid.not_hides hcs more hp
      have kept : (p, i) ∈ stored := ((laid.mem_stored_iff hcs more hn).2 unhidden i).2 hp
      rw [Table.isSome_get?_ofPairs, List.map_fst_zip (by simp [full, stored])]
      exact List.mem_map_of_mem kept

/-- A class that extends the one with a field by a computed property of the same name and a field of its own; a
constructor lists both names, the second one twice. -/
def hidingField : Draft :=
  (((Draft.extending oneField.2 (.ofName "View" none) oneField.1).computed "id" (.raw (.builtin .integer))
    (some (.host 0)) none).field "name" (.raw (.builtin .string)) .null).fieldConstructor ["id", "name", "name"]

/-- The argument for the hidden field goes to its slot all the same, and the last of the arguments for the other one is
read. -/
theorem constructed_reads_hidingField :
    let w : World := { World.bare with classes := (oneField.2.define hidingField).2 }
    hidingField.Built oneField.2 ∧ hidingField.Hides oneField.2 "id" ∧ ¬ hidingField.Hides oneField.2 "name" ∧
    hidingField.stored oneField.2 ["id", "name", "name"] = [("id", 0), ("name", 1), ("name", 1)] ∧
    (∀ q, w.classes.slot? (.host 1) q ≠ some 0) ∧
    ∃ s', w.invoke (.initSlots [0, 1, 1]) (.cls (.host 1)) [.int 5, .str "first", .str "last"] (.ofHeap .empty)
        = (.ok (.object 0 (.host 1)), s') ∧
      w.getProperty (.object 0 (.host 1)) "name" s' = (.ok (.str "last"), s') := by
  intro w
  have base : oneField.2.Built := .define .builtinOnly (.field (.ofName _ _) _ _ _)
  have known : oneField.1.Before oneField.2.defs.length := Nat.zero_lt_one
  have built : hidingField.Built oneField.2 :=
    .fieldConstructor (.field (.computed (.extending (.ofName _ _) rfl known) _ _ _ _) _ _ _) _
  have hides : hidingField.Hides oneField.2 "id" :=
    ⟨⟨_, rfl, rfl⟩, .inr ⟨.host 0, rfl, rfl⟩⟩
  have stored : hidingField.stored oneField.2 ["id", "name", "name"] = [("id", 0), ("name", 1), ("name", 1)] := by
    decide
  obtain ⟨-, -, agree, hidden, reads⟩ :=
    Draft.Built.constructed_reads base built w List.prefix_rfl ["id", "name", "name"] (List.mem_singleton_self _)
  have shown : ¬ hidingField.Hides oneField.2 "name" := by
    refine (agree "name" (by decide)).1 fun i => ?_
    rw [stored]
    show (_ ∈ [("id", 0), ("name", 1), ("name", 1)]) ↔ some 1 = some i
    simp [eq_comm]
  obtain ⟨i, kept, unread⟩ := hidden "id" (by decide) hides
  obtain ⟨s', made, fields⟩ := reads [.int 5, .str "first", .str "last"] (.ofHeap .empty) rfl
  rw [stored] at kept
  obtain rfl : i = 0 := by simpa using kept
  exact ⟨built, hides, shown, stored, unread, s', made, (fields "name" 1 rfl).1⟩

end HostExpr
