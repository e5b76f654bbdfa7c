import HostExpr.Proofs.Site.Run

/-!
# Accessors to properties and items

An accessor that was built for one receiver serves every receiver of the same class as the lookup would. What is
specific to the first receiver is the type of the property, and a property that can be written belongs to a host
class, all of whose instances show the same type. An accessor to items looks at the receiver it is used on.
-/

namespace HostExpr

/-! ## Receivers of one class -/

/-- The instances of a host class are the only values of it, and they all show the class as their type. -/
theorem Value.runtimeType_of_host {v : Value} {n : Nat} (h : v.classRef = .host n) :
    v.runtimeType = .raw (.host n) := by
  cases v <;> simp_all [classRef, runtimeType]

/-- The values of a host class are its instances. -/
theorem Value.eq_object_of_host {v : Value} {n : Nat} (h : v.classRef = .host n) :
    ∃ handle, v = .object handle (.host n) := by
  cases v <;> simp_all [classRef]

namespace Classes

/-- The only property of a built-in class is computed and cannot be written. -/
theorem kind_of_property?_builtin {cs : Classes} {b : Builtin} {name : String} {p : Property}
    (h : cs.property? (.builtin b) name = some p) : ∃ get, p.kind = .computed (some get) none := by
  cases b <;>
    simp [property?, ancestry, lineage, Builtin.lineage, get, Builtin.toDef] at h
  obtain ⟨-, rfl⟩ := h
  exact ⟨_, rfl⟩

/-- A property that can be written belongs to a host class. -/
theorem host_of_isWritable {cs : Classes} {c : ClassRef} {name : String} {p : Property}
    (h : cs.property? c name = some p) (hw : p.isWritable) : ∃ n, c = .host n := by
  cases c with
  | host n => exact ⟨n, rfl⟩
  | builtin b =>
    obtain ⟨get, hk⟩ := kind_of_property?_builtin h
    simp [Property.isWritable, hk] at hw

/-- All receivers of a class give a property that can be written the same type. -/
theorem resolve_eq_of_isWritable {cs : Classes} {r r' : Value} {name : String} {p : Property}
    (h : cs.property? r.classRef name = some p) (hw : p.isWritable) (hc : r'.classRef = r.classRef)
    (t : TypeRef) : cs.resolve r'.runtimeType t = cs.resolve r.runtimeType t := by
  obtain ⟨n, hn⟩ := host_of_isWritable h hw
  rw [Value.runtimeType_of_host hn, Value.runtimeType_of_host (hc.trans hn)]

end Classes

/-! ## Accessors to a property -/

namespace Accessor

/-- The accessors that are built to a property of a class, with the receiver they were built for. -/
inductive OfProperty (cs : Classes) (receiver : Value) (name : String) : Accessor → Prop
  | universal : OfProperty cs receiver name .universal
  | mapKey (hm : receiver.classRef = .builtin .map) : OfProperty cs receiver name (.mapKey (.str name))
  | slot {p : Property} {i : Nat} (hm : receiver.classRef ≠ .builtin .map)
      (hp : cs.property? receiver.classRef name = some p) (hk : p.kind = .slot i) :
      OfProperty cs receiver name (.slot i (cs.resolve receiver.runtimeType p.type))
  | computed {p : Property} {get set : Option Code} (hm : receiver.classRef ≠ .builtin .map)
      (hp : cs.property? receiver.classRef name = some p) (hk : p.kind = .computed get set) :
      OfProperty cs receiver name (.computed get set (cs.resolve receiver.runtimeType p.type))
  | getterMethod {m : Method} (hm : receiver.classRef ≠ .builtin .map)
      (hp : cs.property? receiver.classRef name = none)
      (hg : cs.getterMethod? receiver.classRef name = some m) :
      OfProperty cs receiver name (.getterMethod m)

/-- What is built to a property is one of the accessors to it. -/
theorem ofProperty_build (cs : Classes) (s : Strategy) (receiver : Value) (name : String) :
    OfProperty cs receiver name (.build cs s receiver (.property name)) := by
  have specialized : ∀ a, specializeProperty? cs receiver name = some a → OfProperty cs receiver name a := by
    intro a ha
    unfold specializeProperty? at ha
    split at ha
    · rename_i hm
      cases ha
      exact .mapKey hm
    · rename_i hm
      split at ha
      · rename_i p hp
        cases hk : p.kind with
        | slot i =>
          simp only [hk] at ha
          cases ha
          exact .slot hm hp hk
        | computed get set =>
          simp only [hk] at ha
          cases ha
          exact .computed hm hp hk
      · rename_i hp
        obtain ⟨m, hg, rfl⟩ := Option.map_eq_some_iff.1 ha
        exact .getterMethod hm hp hg
  cases s with
  | universal => exact .universal
  | specialized =>
    cases ha : specialize? cs receiver (.property name) with
    | none =>
      simp only [build, ha]
      exact .universal
    | some a =>
      simp only [build, ha]
      apply specialized
      unfold specialize? at ha
      split at ha
      · cases ha
      · exact ha

end Accessor

namespace World

/-- A receiver that is neither null nor a class nor a map has the properties of its class. -/
theorem getProperty_eq_getMember (w : World) {r : Value} (name : String) (hn : r ≠ .null)
    (hc : ∀ c, r ≠ .cls c) (hm : r.classRef ≠ .builtin .map) :
    w.getProperty r name = w.getMember r name := by
  cases r with
  | null => exact absurd rfl hn
  | cls c => exact absurd rfl (hc c)
  | map h => exact absurd rfl hm
  | _ => rfl

/-- A receiver that is neither null nor a map has the properties of its class. -/
theorem setProperty_eq_setMember (w : World) {r : Value} (name : String) (v : Value) (hn : r ≠ .null)
    (hm : r.classRef ≠ .builtin .map) : w.setProperty r name v = w.setMember r name v := by
  cases r with
  | null => exact absurd rfl hn
  | map h => exact absurd rfl hm
  | _ => rfl

end World

namespace Accessor

/-- An accessor to a property reads it as the lookup does, from every receiver of the class it was built for. -/
theorem BuiltFor.get_eq {w : World} {s : Strategy} {r : Value} {name : String} {a : Accessor}
    (h : BuiltFor w.classes s r.classRef (.property name) a) (hn : r ≠ .null) (hc : ∀ c, r ≠ .cls c) :
    a.get w name r = w.getProperty r name := by
  -- the accessor was built for another receiver of the class, and depends on the class only
  obtain ⟨r₀, hr, -, rfl⟩ := h
  have built := ofProperty_build w.classes s r₀ name
  generalize build w.classes s r₀ (.property name) = a at built
  cases built with
  | universal => rfl
  | mapKey hm => cases r <;> rfl
  -- only classes of the host have fields that can be written, and their instances are objects
  | @slot p i hm hp hk =>
    rw [hr] at hm hp
    have hw : p.isWritable := by simp [Property.isWritable, hk]
    obtain ⟨n, hn'⟩ := Classes.host_of_isWritable hp hw
    obtain ⟨handle, rfl⟩ := Value.eq_object_of_host hn'
    rw [w.getProperty_eq_getMember name hn hc hm]
    simp only [World.getMember, hp, hk, get]
  | @computed p get set hm hp hk =>
    rw [hr] at hm hp
    cases get with
    | none => rfl
    | some code =>
      rw [w.getProperty_eq_getMember name hn hc hm]
      simp only [World.getMember, hp, hk, Accessor.get]
  | getterMethod hm hp hg =>
    rw [hr] at hm hp hg
    rw [w.getProperty_eq_getMember name hn hc hm]
    simp only [World.getMember, hp, hg, Accessor.get]

/-- An accessor to a property writes it as the lookup does, into every receiver of the class it was built for. -/
theorem BuiltFor.set_eq {w : World} {s : Strategy} {r : Value} {name : String} {a : Accessor}
    (h : BuiltFor w.classes s r.classRef (.property name) a) (hn : r ≠ .null) (v : Value) :
    a.set w name r v = w.setProperty r name v := by
  obtain ⟨r₀, hr, -, rfl⟩ := h
  have built := ofProperty_build w.classes s r₀ name
  generalize build w.classes s r₀ (.property name) = a at built
  cases built with
  | universal => rfl
  | mapKey hm => cases r <;> rfl
  | @slot p i hm hp hk =>
    rw [hr] at hm hp
    have hw : p.isWritable := by simp [Property.isWritable, hk]
    obtain ⟨n, hn'⟩ := Classes.host_of_isWritable hp hw
    obtain ⟨handle, rfl⟩ := Value.eq_object_of_host hn'
    rw [w.setProperty_eq_setMember name v hn hm, Classes.resolve_eq_of_isWritable hp hw hr]
    simp only [World.setMember, hp, hk, set]
  | @computed p get set hm hp hk =>
    rw [hr] at hm hp
    cases set with
    | none => rfl
    | some code =>
      have hw : p.isWritable := by simp [Property.isWritable, hk]
      rw [w.setProperty_eq_setMember name v hn hm, Classes.resolve_eq_of_isWritable hp hw hr]
      simp only [World.setMember, hp, hk, Accessor.set]
  | getterMethod hm hp hg => rfl

/-! ## Accessors to an item -/

/-- What is built to the items of a receiver depends on its class alone. -/
theorem build_index (cs : Classes) (s : Strategy) (receiver : Value) :
    build cs s receiver .index = .universal
      ∨ specializeIndex? receiver.classRef = some (build cs s receiver .index) := by
  cases s with
  | universal => exact Or.inl rfl
  | specialized =>
    cases ha : specialize? cs receiver .index with
    | none =>
      left
      simp only [build, ha, Option.getD_none]
    | some a =>
      right
      simp only [build, ha, Option.getD_some]
      unfold specialize? at ha
      split at ha
      · cases ha
      · exact ha

/-- The accessors to the items of a class. -/
theorem eq_of_specializeIndex? {c : ClassRef} {a : Accessor} (h : specializeIndex? c = some a) :
    a = .listIndex ∨ a = .arrayIndex ∨ a = .mapIndex := by
  unfold specializeIndex? at h
  split at h <;> simp_all

/-- An accessor to items reads them as the lookup does. It looks at the receiver it is used on. -/
theorem BuiltFor.getIndex_eq {w : World} {s : Strategy} {c : ClassRef} {a : Accessor}
    (h : BuiltFor w.classes s c .index a) (r index : Value) : a.getIndex w r index = w.getIndex r index := by
  obtain ⟨r₀, -, -, rfl⟩ := h
  rcases build_index w.classes s r₀ with hu | hi
  · rw [hu]
    rfl
  · rcases eq_of_specializeIndex? hi with ha | ha | ha <;> rw [ha] <;> cases r <;> rfl

/-- An accessor to items writes them as the lookup does. -/
theorem BuiltFor.setIndex_eq {w : World} {s : Strategy} {c : ClassRef} {a : Accessor}
    (h : BuiltFor w.classes s c .index a) (r index v : Value) :
    a.setIndex w r index v = w.setIndex r index v := by
  obtain ⟨r₀, -, -, rfl⟩ := h
  rcases build_index w.classes s r₀ with hu | hi
  · rw [hu]
    rfl
  · rcases eq_of_specializeIndex? hi with ha | ha | ha <;> rw [ha] <;> cases r <;> rfl

end Accessor

end HostExpr
