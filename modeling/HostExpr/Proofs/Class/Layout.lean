import HostExpr.Class.Draft
import HostExpr.Proofs.Type.Unified
import Mathlib.Data.List.Induction
import Mathlib.Data.List.Pairwise

/-!
# The layout of classes

A class is built on its superclass: a field takes the slot behind those that are there already, and a class that extends
it goes on from there. Each call of the host keeps a draft laid out in this way (`Draft.Built.laidOut`), and so every
class that it defines is (`Classes.Built.lays`). The slots that a class and its superclasses declare are then the
numbers below the number of its slots, each of them once: `Classes.Built.slots_ancestry`. Redeclared fields and computed
properties do not disturb this, though they hide what they are named after.
-/

namespace HostExpr

/-! ## Slots by name -/

/-- The slot of a property, if it is not a computed one. -/
def Property.slot? (P : Property) : Option Nat :=
  match P.kind with
  | .slot i => some i
  | .computed _ _ => none

theorem Property.kind_eq_slot {P : Property} {i : Nat} (h : P.slot? = some i) : P.kind = .slot i := by
  unfold slot? at h
  split at h
  · rename_i j kind
    rw [kind, Option.some.inj h]
  · cases h

/-- The slots of the properties that a class declares itself, in order. -/
def ClassDef.slots (d : ClassDef) : List Nat := d.properties.filterMap Property.slot?

namespace Classes

/-- How many slots an instance of a class has. -/
def slotCount (cs : Classes) (c : ClassRef) : Nat := (cs.get c).slotDefaults.length

/-- The slot of the property that a name stands for, if it is not a computed one. -/
def slot? (cs : Classes) (c : ClassRef) (name : String) : Option Nat := (cs.property? c name).bind Property.slot?

end Classes

/-! ## Building classes -/

/-- The class is a built-in one or among the first `n` of the host. -/
def ClassRef.Before (n : Nat) : ClassRef → Prop
  | .builtin _ => True
  | .host m => m < n

theorem ClassRef.Before.mono {c : ClassRef} {m n : Nat} (h : c.Before m) (le : m ≤ n) : c.Before n := by
  cases c with
  | builtin b => trivial
  | host k => exact Nat.lt_of_lt_of_le h le

/-- What the calls of a host lead to when it builds a class. It extends an existing class, before it adds fields. -/
inductive Draft.Built (cs : Classes) : Draft → Prop
  | ofName (name : String) (package? : Option String) : Built cs (.ofName name package?)
  | extending {d : Draft} {c : ClassRef} (hd : Built cs d) (fieldless : d.ownSlots = [])
    (known : c.Before cs.defs.length) : Built cs (.extending cs d c)
  | withTypeParams {d : Draft} (hd : Built cs d) (names : List String) : Built cs (d.withTypeParams names)
  | field {d : Draft} (hd : Built cs d) (name : String) (type : TypeRef) (default : Value) :
    Built cs (d.field name type default)
  | computed {d : Draft} (hd : Built cs d) (name : String) (type : TypeRef) (get set : Option Code) :
    Built cs (d.computed name type get set)
  | method {d : Draft} (hd : Built cs d) (name : String) (params : List TypeRef) (result : TypeRef) (code : Code) :
    Built cs (d.method name params result code)
  | staticMethod {d : Draft} (hd : Built cs d) (name : String) (params : List TypeRef) (result : TypeRef)
    (code : Code) : Built cs (d.staticMethod name params result code)
  | staticField {d : Draft} (hd : Built cs d) (name : String) (type : Ty) (value : Value) :
    Built cs (d.staticField name type value)
  | constructor {d : Draft} (hd : Built cs d) (params : List TypeRef) (code : Code) :
    Built cs (d.constructor params code)
  | fieldConstructor {d : Draft} (hd : Built cs d) (fields : List String) : Built cs (d.fieldConstructor fields)

/-- The classes that a host can build, one after the other. -/
inductive Classes.Built : Classes → Prop
  | builtinOnly : Built .builtinOnly
  | define {cs : Classes} {d : Draft} (hcs : Built cs) (hd : Draft.Built cs d) : Built (cs.define d).2

/-! ## One class -/

/-- The properties of fields that take the slots from `k` on. -/
def placed (k : Nat) (fields : List (String × TypeRef)) : List Property :=
  fields.mapIdx fun i field => ⟨field.1, field.2, .slot (k + i)⟩

theorem placed_concat (k : Nat) (fields : List (String × TypeRef)) (field : String × TypeRef) :
    placed k (fields ++ [field]) = placed k fields ++ [⟨field.1, field.2, .slot (k + fields.length)⟩] := by
  simp [placed, List.mapIdx_append]

theorem filterMap_slot?_placed (k : Nat) (fields : List (String × TypeRef)) :
    (placed k fields).filterMap Property.slot? = List.range' k fields.length := by
  induction fields using List.reverseRecOn with
  | nil => rfl
  | append_singleton fields field ih =>
    rw [placed_concat, List.filterMap_append, ih, List.length_append, List.length_singleton, List.range'_1_concat]
    rfl

/-- The draft has the slots of the class that it extends and its own behind them, in the order of its fields. Among its
properties the fields come in that order, too. -/
structure Draft.LaidOut (cs : Classes) (d : Draft) (s : ClassRef) : Prop where
  super : d.super? = some s
  known : s.Before cs.defs.length
  defaults : ∃ own, own.length = d.ownSlots.length ∧ d.slotDefaults = (cs.get s).slotDefaults ++ own
  fields : d.properties.filter (·.slot?.isSome) = placed (cs.slotCount s) d.ownSlots

namespace Draft

variable {cs : Classes} {d : Draft} {s : ClassRef}

theorem LaidOut.length_slotDefaults (h : d.LaidOut cs s) :
    d.slotDefaults.length = cs.slotCount s + d.ownSlots.length := by
  obtain ⟨own, length, defaults⟩ := h.defaults
  rw [defaults, List.length_append, length]
  rfl

theorem LaidOut.ofName (name : String) (package? : Option String) :
    (Draft.ofName name package?).LaidOut cs (.builtin .object) :=
  ⟨rfl, trivial, ⟨[], rfl, rfl⟩, rfl⟩

/-- A draft without fields starts anew from the slots of the class that it extends. -/
theorem LaidOut.extending (h : d.LaidOut cs s) (fieldless : d.ownSlots = []) {c : ClassRef}
    (known : c.Before cs.defs.length) : (Draft.extending cs d c).LaidOut cs c := by
  have slotless : d.properties.filter (·.slot?.isSome) = [] := by
    rw [h.fields, fieldless]
    rfl
  refine ⟨rfl, known, ⟨[], ?_, (List.append_nil _).symm⟩, ?_⟩
  · show 0 = d.ownSlots.length
    rw [fieldless]
    rfl
  · show d.properties.filter (·.slot?.isSome) = placed (cs.slotCount c) d.ownSlots
    rw [slotless, fieldless]
    rfl

theorem LaidOut.field (h : d.LaidOut cs s) (name : String) (type : TypeRef) (default : Value) :
    (d.field name type default).LaidOut cs s := by
  obtain ⟨own, length, defaults⟩ := h.defaults
  refine ⟨h.super, h.known, ⟨own ++ [default], ?_, ?_⟩, ?_⟩
  · show (own ++ [default]).length = (d.ownSlots ++ [(name, type)]).length
    simp [length]
  · show d.slotDefaults ++ [default] = _
    rw [defaults, List.append_assoc]
  · show (d.properties ++ [(⟨name, type, .slot d.slotDefaults.length⟩ : Property)]).filter _
      = placed (cs.slotCount s) (d.ownSlots ++ [(name, type)])
    rw [List.filter_append, h.fields, placed_concat, h.length_slotDefaults]
    rfl

theorem LaidOut.computed (h : d.LaidOut cs s) (name : String) (type : TypeRef) (get set : Option Code) :
    (d.computed name type get set).LaidOut cs s := by
  refine ⟨h.super, h.known, h.defaults, ?_⟩
  show (d.properties ++ [(⟨name, type, .computed get set⟩ : Property)]).filter _ = _
  rw [List.filter_append, h.fields]
  exact List.append_nil _

/-- Whatever the calls, own slots come behind those of the superclass. -/
theorem Built.laidOut (h : d.Built cs) : ∃ s, d.LaidOut cs s := by
  induction h with
  | ofName name package? => exact ⟨_, .ofName name package?⟩
  | extending _ fieldless known ih =>
    obtain ⟨s, h⟩ := ih
    exact ⟨_, h.extending fieldless known⟩
  | field _ name type default ih =>
    obtain ⟨s, h⟩ := ih
    exact ⟨s, h.field name type default⟩
  | computed _ name type get set ih =>
    obtain ⟨s, h⟩ := ih
    exact ⟨s, h.computed name type get set⟩
  -- the other members take no slots
  | withTypeParams _ _ ih | method _ _ _ _ _ ih | staticMethod _ _ _ _ _ ih | staticField _ _ _ _ ih
  | constructor _ _ _ ih | fieldConstructor _ _ ih =>
    obtain ⟨s, h⟩ := ih
    exact ⟨s, h.super, h.known, h.defaults, h.fields⟩

end Draft

/-- The class has the slots of its superclass, and its own properties take those behind them, each of them once. -/
structure Classes.Lays (cs : Classes) (d : ClassDef) (s : ClassRef) : Prop where
  super : d.super? = some s
  inherits : (cs.get s).slotDefaults <+: d.slotDefaults
  own : d.slots = List.range' (cs.slotCount s) (d.slotDefaults.length - cs.slotCount s)

theorem Draft.LaidOut.finish {cs : Classes} {d : Draft} {s : ClassRef} (h : d.LaidOut cs s) :
    cs.Lays (d.finish cs) s := by
  refine ⟨h.super, ?_, ?_⟩
  · obtain ⟨own, -, defaults⟩ := h.defaults
    exact ⟨own, defaults.symm⟩
  · have slots : d.properties.filterMap Property.slot?
        = (d.properties.filter (·.slot?.isSome)).filterMap Property.slot? := by
      rw [List.filterMap_filter]
      congr 1
      funext P
      cases P.slot? <;> rfl
    show d.properties.filterMap Property.slot? = List.range' _ (d.slotDefaults.length - _)
    rw [slots, h.fields, filterMap_slot?_placed, h.length_slotDefaults, Nat.add_sub_cancel_left]

/-! ## One class after the other -/

namespace Classes

/-- A class stays what it is when others are defined. -/
theorem get_of_grown {cs later : Classes} {c : ClassRef} (more : cs.defs <+: later.defs)
    (known : c.Before cs.defs.length) : later.get c = cs.get c := by
  obtain ⟨new, defs⟩ := more
  cases c with
  | builtin b => rfl
  | host n =>
    have inside : n < cs.defs.length := known
    simp [get, ← defs, List.getElem?_append_left inside]

theorem get_define_of_before {cs : Classes} {c : ClassRef} (h : c.Before cs.defs.length) (e : Draft) :
    (cs.define e).2.get c = cs.get c :=
  get_of_grown (List.prefix_append _ _) h

theorem get_define_length (cs : Classes) (e : Draft) :
    (cs.define e).2.get (.host cs.defs.length) = e.finish cs := by
  simp [define, get]

theorem length_defs_define (cs : Classes) (e : Draft) : (cs.define e).2.defs.length = cs.defs.length + 1 := by
  simp [define]

/-- A class is what was made of its draft, whatever is defined later. -/
theorem get_of_defined {cs later : Classes} {e : Draft} (more : (cs.define e).2.defs <+: later.defs) :
    later.get (.host cs.defs.length) = e.finish cs := by
  have known : cs.defs.length < (cs.define e).2.defs.length := by
    rw [length_defs_define]
    exact Nat.lt_succ_self _
  rw [get_of_grown (c := .host cs.defs.length) more known]
  exact get_define_length cs e

end Classes

/-- Other classes can be defined while a class is built. -/
theorem Draft.Built.define {cs : Classes} {d : Draft} (h : d.Built cs) (e : Draft) : d.Built (cs.define e).2 := by
  have more : cs.defs.length ≤ (cs.define e).2.defs.length := by
    rw [Classes.length_defs_define]
    exact Nat.le_succ _
  induction h with
  | ofName name package? => exact .ofName name package?
  | @extending d c _ fieldless known ih =>
    -- the superclass was defined before, and a later definition leaves it as it is
    have same : Draft.extending cs d c = Draft.extending (cs.define e).2 d c := by
      unfold Draft.extending
      rw [Classes.get_define_of_before known]
    rw [same]
    exact ih.extending fieldless (known.mono more)
  | withTypeParams _ names ih => exact ih.withTypeParams names
  | field _ name type default ih => exact ih.field name type default
  | computed _ name type get set ih => exact ih.computed name type get set
  | method _ name params result code ih => exact ih.method name params result code
  | staticMethod _ name params result code ih => exact ih.staticMethod name params result code
  | staticField _ name type value ih => exact ih.staticField name type value
  | constructor _ params code ih => exact ih.constructor params code
  | fieldConstructor _ fields ih => exact ih.fieldConstructor fields

namespace Classes

variable {cs : Classes} {c d s : ClassRef} {n : Nat}

theorem Lays.define {x : ClassDef} (h : cs.Lays x s) (known : s.Before cs.defs.length) (e : Draft) :
    (cs.define e).2.Lays x s := by
  have same := get_define_of_before known e
  refine ⟨h.super, ?_, ?_⟩
  · rw [same]
    exact h.inherits
  · unfold slotCount
    rw [same]
    exact h.own

/-- A class that was built has the slots of its superclass and its own behind them. The superclass was there before. -/
theorem Built.lays (h : cs.Built) (hn : n < cs.defs.length) : ∃ s, s.Before n ∧ cs.Lays (cs.get (.host n)) s := by
  induction h with
  | builtinOnly => cases hn
  | @define cs e _ he ih =>
    rw [length_defs_define] at hn
    by_cases old : n < cs.defs.length
    · obtain ⟨s, before, lays⟩ := ih old
      have known : s.Before cs.defs.length := before.mono (Nat.le_of_lt old)
      refine ⟨s, before, ?_⟩
      rw [get_define_of_before (c := .host n) old]
      exact lays.define known e
    · obtain rfl : n = cs.defs.length := by omega
      obtain ⟨s, laid⟩ := he.laidOut
      refine ⟨s, laid.known, ?_⟩
      rw [get_define_length]
      exact laid.finish.define laid.known e

theorem lineage_host (super : (cs.get (.host n)).super? = some s) (before : s.Before n) :
    cs.lineage (.host n) = .host n :: cs.lineage s := by
  show cs.hostLineage (n + 1) n = _
  unfold hostLineage
  rw [super]
  cases s with
  | builtin b => rfl
  | host m =>
    have below : m < n := before
    show _ :: (if m < n then cs.hostLineage n m else []) = _ :: cs.hostLineage (m + 1) m
    rw [if_pos below, hostLineage_eq below (Nat.lt_succ_self m)]

/-- A number without a class counts as one without members. -/
theorem get_of_length_le (hn : cs.defs.length ≤ n) : cs.get (.host n) = .bare "" none none := by
  simp [get, hn]

theorem lineage_of_length_le (hn : cs.defs.length ≤ n) : cs.lineage (.host n) = [.host n] := by
  simp [lineage, hostLineage, get_of_length_le hn, ClassDef.bare]

/-- What holds of the built-in classes, and of a class that was built if it holds of its superclass, holds of every
class. -/
@[elab_as_elim]
theorem Built.super_induction (h : cs.Built) {motive : ClassRef → Prop} (builtin : ∀ b, motive (.builtin b))
    (undefined : ∀ n, cs.defs.length ≤ n → motive (.host n))
    (extending : ∀ n s, s.Before n → cs.Lays (cs.get (.host n)) s → motive s → motive (.host n)) (c : ClassRef) :
    motive c := by
  cases c with
  | builtin b => exact builtin b
  | host n =>
    induction n using Nat.strongRecOn with
    | ind n ih =>
      by_cases hn : n < cs.defs.length
      · obtain ⟨s, before, lays⟩ := h.lays hn
        refine extending n s before lays ?_
        cases s with
        | builtin b => exact builtin b
        | host m => exact ih m before
      · exact undefined n (Nat.le_of_not_lt hn)

/-- The ancestry of a class stays what it is when others are defined. -/
theorem Built.ancestry_of_grown (h : cs.Built) {later : Classes} (more : cs.defs <+: later.defs)
    (known : c.Before cs.defs.length) : later.ancestry c = cs.ancestry c := by
  induction c using h.super_induction with
  | builtin b => cases b <;> rfl
  | undefined n hn => exact absurd known (Nat.not_lt.2 hn)
  | extending n s before lays ih =>
    have inside : n < cs.defs.length := known
    have same : later.get (.host n) = cs.get (.host n) := get_of_grown more known
    have super : (later.get (.host n)).super? = some s := same ▸ lays.super
    have above : later.ancestry s = cs.ancestry s := ih (before.mono (Nat.le_of_lt inside))
    unfold ancestry at above ⊢
    rw [lineage_host lays.super before, lineage_host super before, List.map_cons, List.map_cons, same, above]

/-- The slots that a class and its superclasses declare, the superclasses' first, are all that its instances have, in
order. -/
theorem Built.slots_ancestry (h : cs.Built) (c : ClassRef) :
    (cs.ancestry c).reverse.flatMap ClassDef.slots = List.range (cs.slotCount c) := by
  induction c using h.super_induction with
  | builtin b => cases b <;> rfl
  | undefined n hn =>
    simp [ancestry, lineage_of_length_le hn, slotCount, get_of_length_le hn, ClassDef.bare, ClassDef.slots]
  | extending n s before lays ih =>
    have fits : cs.slotCount s ≤ cs.slotCount (.host n) := lays.inherits.length_le
    have ancestry : cs.ancestry (.host n) = cs.get (.host n) :: cs.ancestry s := by
      unfold Classes.ancestry
      rw [lineage_host lays.super before, List.map_cons]
    have joined := List.range'_append_1 (s := 0) (m := cs.slotCount s) (n := cs.slotCount (.host n) - cs.slotCount s)
    rw [Nat.zero_add, Nat.add_sub_cancel' fits] at joined
    rw [ancestry, List.reverse_cons, List.flatMap_append, ih, List.flatMap_singleton, lays.own, List.range_eq_range',
      List.range_eq_range']
    exact joined

/-- A superclass of a built-in class is the class itself or `Object`. -/
theorem eq_or_object_of_mem {b : Builtin} (hd : d ∈ b.lineage) :
    d = .builtin b ∨ d = .builtin .object ∧ b.lineage = [.builtin b, .builtin .object] ∧ b ≠ .object := by
  cases b <;> simp_all [Builtin.lineage]

/-- The slots of a superclass start as they do for the superclass. -/
theorem Built.inherits (h : cs.Built) (hd : d ∈ cs.lineage c) :
    (cs.get d).slotDefaults <+: (cs.get c).slotDefaults := by
  induction c using h.super_induction with
  | builtin b =>
    obtain rfl | ⟨rfl, -, -⟩ := eq_or_object_of_mem hd
    · exact List.prefix_refl _
    · exact List.nil_prefix
  | undefined n hn =>
    rw [lineage_of_length_le hn, List.mem_singleton] at hd
    subst hd
    exact List.prefix_refl _
  | extending n s before lays ih =>
    rw [lineage_host lays.super before] at hd
    rcases List.mem_cons.1 hd with rfl | above
    · exact List.prefix_refl _
    · exact (ih above).trans lays.inherits

/-- The lineage of a class ends with that of each of its superclasses. -/
theorem Built.lineage_split (h : cs.Built) (hd : d ∈ cs.lineage c) :
    ∃ below, cs.lineage c = below ++ cs.lineage d ∧ ∀ e ∈ below, e ∉ cs.lineage d := by
  induction c using h.super_induction with
  | builtin b =>
    obtain rfl | ⟨rfl, two, proper⟩ := eq_or_object_of_mem hd
    · exact ⟨[], rfl, by simp⟩
    · exact ⟨[.builtin b], two, by simpa [lineage, Builtin.lineage] using proper⟩
  | undefined n hn =>
    rw [lineage_of_length_le hn, List.mem_singleton] at hd
    exact ⟨[], by rw [hd]; rfl, by simp⟩
  | extending n s before lays ih =>
    rw [lineage_host lays.super before] at hd ⊢
    rcases List.mem_cons.1 hd with rfl | above
    · exact ⟨[], (lineage_host lays.super before).symm, by simp⟩
    · obtain ⟨below, split, apart⟩ := ih above
      -- all superclasses are older than the class
      have fresh : .host n ∉ cs.lineage s := by
        intro again
        cases s with
        | builtin b => cases b <;> simp [lineage, Builtin.lineage] at again
        | host m =>
          have below : m < n := before
          have le : n ≤ m := le_of_mem_hostLineage again
          omega
      refine ⟨.host n :: below, by rw [split, List.cons_append], ?_⟩
      intro e he
      rcases List.mem_cons.1 he with rfl | he
      · intro above
        exact fresh (split ▸ List.mem_append_right _ above)
      · exact apart e he

/-! ## Properties -/

/-- The properties of a class and its superclasses, the most derived first. -/
def properties (cs : Classes) (c : ClassRef) : List Property := (cs.ancestry c).flatMap ClassDef.properties

theorem property?_eq_find? (cs : Classes) (c : ClassRef) (name : String) :
    cs.property? c name = (cs.properties c).find? (·.name = name) := rfl

/-- Each slot of an instance is that of one property. -/
theorem Built.slots_perm (h : cs.Built) (c : ClassRef) :
    ((cs.properties c).filterMap Property.slot?).Perm (List.range (cs.slotCount c)) := by
  rw [← h.slots_ancestry c, properties, List.filterMap_flatMap]
  exact (List.reverse_perm _).symm.flatMap_right _

variable {P Q : Property} {i j : Nat} {p q : String}

theorem Built.slot_lt (h : cs.Built) (hP : P ∈ cs.properties c) (hi : P.slot? = some i) : i < cs.slotCount c := by
  have listed : i ∈ (cs.properties c).filterMap Property.slot? := List.mem_filterMap.2 ⟨P, hP, hi⟩
  exact List.mem_range.1 ((h.slots_perm c).mem_iff.1 listed)

/-- Two properties of a class and its superclasses share no slot, whatever their names. -/
theorem Built.eq_of_slot (h : cs.Built) (hP : P ∈ cs.properties c) (hQ : Q ∈ cs.properties c)
    (hi : P.slot? = some i) (hj : Q.slot? = some i) : P = Q := by
  have once : ((cs.properties c).filterMap Property.slot?).Nodup := (h.slots_perm c).nodup_iff.2 List.nodup_range
  by_contra other
  -- of any two entries of the list, in either order
  have : Std.Symm fun P Q : Property => ∀ i, P.slot? = some i → ∀ j, Q.slot? = some j → i ≠ j :=
    ⟨fun P Q apart i hi j hj => (apart j hj i hi).symm⟩
  exact (List.pairwise_filterMap.1 once).forall hP hQ other i hi i hj rfl

theorem mem_of_property? (h : cs.property? c p = some P) : P ∈ cs.properties c := List.mem_of_find?_eq_some h

theorem name_of_property? (h : cs.property? c p = some P) : P.name = p := by
  have found := List.find?_some h
  exact of_decide_eq_true found

theorem Built.slot?_lt (h : cs.Built) (hp : cs.slot? c p = some i) : i < cs.slotCount c := by
  obtain ⟨P, found, slot⟩ := Option.bind_eq_some_iff.1 hp
  exact h.slot_lt (mem_of_property? found) slot

/-- Two names do not stand for one slot. -/
theorem Built.slot?_ne (h : cs.Built) (other : p ≠ q) (hp : cs.slot? c p = some i) (hq : cs.slot? c q = some j) :
    i ≠ j := by
  rintro rfl
  obtain ⟨P, foundP, slotP⟩ := Option.bind_eq_some_iff.1 hp
  obtain ⟨Q, foundQ, slotQ⟩ := Option.bind_eq_some_iff.1 hq
  have same : P = Q := h.eq_of_slot (mem_of_property? foundP) (mem_of_property? foundQ) slotP slotQ
  apply other
  rw [← name_of_property? foundP, same, name_of_property? foundQ]

theorem properties_split {below : List ClassRef} (split : cs.lineage c = below ++ cs.lineage d) :
    cs.properties c = (below.map cs.get).flatMap ClassDef.properties ++ cs.properties d := by
  unfold properties ancestry
  rw [split, List.map_append, List.flatMap_append]

theorem Built.mem_properties (h : cs.Built) (hd : d ∈ cs.lineage c) (hP : P ∈ cs.properties d) :
    P ∈ cs.properties c := by
  obtain ⟨below, split, -⟩ := h.lineage_split hd
  rw [properties_split split]
  exact List.mem_append_right _ hP

/-- A property of a superclass is found by its name, unless a class below has one of that name. -/
theorem Built.property?_inherited (h : cs.Built) (hd : d ∈ cs.lineage c)
    (unhidden : ∀ e ∈ cs.lineage c, p ∈ (cs.get e).properties.map Property.name → e ∈ cs.lineage d) :
    cs.property? c p = cs.property? d p := by
  obtain ⟨below, split, apart⟩ := h.lineage_split hd
  have none : ((below.map cs.get).flatMap ClassDef.properties).find? (·.name = p) = none := by
    refine List.find?_eq_none.2 fun P hP named => ?_
    obtain ⟨x, hx, hP⟩ := List.mem_flatMap.1 hP
    obtain ⟨e, he, rfl⟩ := List.mem_map.1 hx
    have inside : e ∈ cs.lineage c := split ▸ List.mem_append_left _ he
    have named : P.name = p := of_decide_eq_true named
    exact apart e he (unhidden e inside (List.mem_map.2 ⟨P, hP, named⟩))
  rw [property?_eq_find?, properties_split split, List.find?_append, none, Option.none_or]
  rfl

end Classes

end HostExpr
