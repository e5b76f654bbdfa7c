import HostExpr.Proofs.Call.Choice
import HostExpr.Proofs.Execution.Steps
import HostExpr.Proofs.Scope.Frames
import HostExpr.Proofs.Soundness.Operator

/-!
# What the steps of a run give

A step is taken apart as it is put together: `Gives` says what is true where a step gives something, with one rule for
each way of putting steps together. Then there is one lemma for each kind of value that a run makes: it suits the type
that analysis records, if the world keeps its promises.
-/

namespace HostExpr

open Typed Classes

/-- Where a step gives something, a condition holds of that and of the state behind it. -/
def Gives {ε σ α : Type} (x : ExceptT ε (StateM σ) α) (s : σ) (Q : α → σ → Prop) : Prop :=
  ∀ a s', x s = (.ok a, s') → Q a s'

namespace Gives

section

variable {ε σ α β : Type} {s : σ}

theorem pure {a : α} {Q : α → σ → Prop} (h : Q a s) : Gives (Pure.pure a : ExceptT ε (StateM σ) α) s Q := by
  intro b s' hb
  cases hb
  exact h

theorem throw (e : ε) {Q : α → σ → Prop} : Gives (MonadExcept.throw e : ExceptT ε (StateM σ) α) s Q := by
  intro b s' hb
  cases hb

/-- One step after the other. -/
theorem bind {x : ExceptT ε (StateM σ) α} {f : α → ExceptT ε (StateM σ) β} {Q : β → σ → Prop}
    (h : Gives x s fun a s' => Gives (f a) s' Q) : Gives (x >>= f) s Q := by
  intro b s' hb
  obtain ⟨a, s₁, hx, rest⟩ := of_bind_ok hb
  exact h a s₁ hx b s' rest

theorem map {x : ExceptT ε (StateM σ) α} {f : α → β} {Q : β → σ → Prop} (h : Gives x s fun a s' => Q (f a) s') :
    Gives (f <$> x) s Q :=
  .bind fun a s' hx => .pure (h a s' hx)

theorem weaken {x : ExceptT ε (StateM σ) α} {Q R : α → σ → Prop} (h : Gives x s Q) (less : ∀ a s', Q a s' → R a s') :
    Gives x s R := fun a s' hx => less a s' (h a s' hx)

theorem and {x : ExceptT ε (StateM σ) α} {Q R : α → σ → Prop} (h : Gives x s Q) (h' : Gives x s R) :
    Gives x s fun a s' => Q a s' ∧ R a s' := fun a s' hx => ⟨h a s' hx, h' a s' hx⟩

end

variable {α : Type} {s : Running} {Q : α → Running → Prop}

/-- A computation on the store. -/
theorem act {a : Act α} (h : Gives a s.store fun r store => Q r { s with store := store }) : Gives (Exec.act a) s Q := by
  intro r s' hr
  unfold Exec.act at hr
  split at hr
  · rename_i done
    cases hr
    exact h _ _ done
  · cases hr

theorem ofExcept {r : Except RuntimeError α} (h : ∀ a, r = .ok a → Q a s) : Gives (Exec.ofExcept r) s Q := by
  cases r with
  | ok a => exact .pure (h a rfl)
  | error e => exact .throw _

/-- A step one level deeper. -/
theorem nested {x : Exec α} {limits : Limits}
    (h : Gives x { s with depth := s.depth + 1 } fun a s' => Q a { s' with depth := s'.depth - 1 }) :
    Gives (Exec.nested limits x) s Q := by
  intro a s' ha
  unfold Exec.nested at ha
  split at ha
  · cases ha
  · obtain ⟨outcome, rfl⟩ := Prod.mk.inj ha
    exact h a _ (Prod.ext outcome rfl)

/-- A step in a block. -/
theorem inBlock {x : Exec α}
    (h : Gives x { s with frames := s.frames.push } fun a s' => Q a { s' with frames := s'.frames.popped }) :
    Gives (Exec.inBlock x) s Q := by
  intro a s' ha
  unfold Exec.inBlock at ha
  obtain ⟨outcome, rfl⟩ := Prod.mk.inj ha
  exact h a _ (Prod.ext outcome rfl)

end Gives

/-! ## Promises of the world -/

namespace World

variable (w : World)

/-- What the host declares of what code gives on a receiver: the code of members of host classes, whose types are as the
receiver shows them, and the code of functions. -/
inductive Declares : Value → Code → Ty → Prop
  /-- The getter of a computed property. -/
  | getter {receiver : Value} {n : Nat} {p : Property} {get : Code} {set : Option Code}
      (above : .host n ∈ w.classes.lineage receiver.classRef) (hp : p ∈ (w.classes.get (.host n)).properties)
      (hk : p.kind = .computed (some get) set) : Declares receiver get (w.classes.resolve receiver.runtimeType p.type)
  /-- A method. -/
  | method {receiver : Value} {n : Nat} {m : Method} (above : .host n ∈ w.classes.lineage receiver.classRef)
      (hm : m ∈ (w.classes.get (.host n)).methods) :
      Declares receiver m.code (w.classes.resolve receiver.runtimeType m.result)
  /-- A static method of the class that the receiver is. -/
  | staticMethod {c : ClassRef} {n : Nat} {m : Method} (above : .host n ∈ w.classes.lineage c)
      (hm : m ∈ (w.classes.get (.host n)).staticMethods) :
      Declares (.cls c) m.code (w.classes.resolve (.raw c) m.result)
  /-- A constructor of the class that the receiver is. -/
  | constructor {n : Nat} {m : Method} (hm : m ∈ (w.classes.get (.host n)).constructors) :
      Declares (.cls (.host n)) m.code (.raw (.host n))
  /-- A function, which has no receiver. -/
  | function {f : Function} (hf : f ∈ w.functions) : Declares .null f.code f.result

/-- What a host promises: that its code gives null or what it declares, that its static fields hold what they declare,
that its conversions give values of their targets, and that no class extends that of null. -/
structure KeepsTypes : Prop where
  nullAlone : w.classes.NullAlone
  conversions : w.KeepsPromises
  fields : ∀ c name f, w.classes.staticField? c name = some f → w.classes.suits f.value f.type
  bodies : ∀ receiver code t, w.Declares receiver code t → ∀ args store,
    Gives (w.invoke code receiver args) store fun v _ => w.classes.suits v t

variable {w}

/-- What is made to fit a type suits it. -/
theorem suits_convertTo (h : w.KeepsPromises) (t : Ty) (v : Value) (store : Store) :
    Gives (w.convertTo t v) store fun r _ => w.classes.suits r t := by
  intro r store' hr
  obtain ⟨-, -, -, -, gives⟩ := w.proper_convertTo t v store
  exact suits_of_satisfies (gives r (congrArg Prod.fst hr) h)

/-- What is converted to a class is of the class. -/
theorem suits_convert (h : w.KeepsPromises) (v : Value) (c : ClassRef) (store : Store) :
    Gives (w.convert v c) store fun r _ => w.classes.suits r (.raw c) := by
  intro r store' hr
  obtain ⟨-, -, -, -, gives⟩ := w.proper_convert v c store
  exact widens_of_isSubclass (gives r (congrArg Prod.fst hr) h)

theorem classRef_newList (items : List Value) (store : Store) :
    Gives (Act.newList items) store fun r _ => r.classRef = .builtin .list := .map fun _ _ _ => rfl

theorem classRef_newArray (item : Ty) (items : List Value) (store : Store) :
    Gives (Act.newArray item items) store fun r _ => r.classRef = .builtin .array := .map fun _ _ _ => rfl

theorem classRef_newMap (es : Entries) (store : Store) :
    Gives (Act.newMap es) store fun r _ => r.classRef = .builtin .map :=
  .bind fun _ _ _ => .bind fun _ _ _ => .pure rfl

/-- What is called is recorded; what comes of it is what comes of the code. -/
theorem gives_invoke {code : Code} {receiver : Value} {args : List Value} {store : Store} {Q : Value → Prop}
    (h : Gives (w.run receiver args code) store fun v _ => Q v) :
    Gives (w.invoke code receiver args) store fun v _ => Q v := by
  intro v store' hv
  unfold invoke at hv
  obtain ⟨outcome, -⟩ := Prod.mk.inj hv
  exact h v _ (Prod.ext outcome rfl)

/-- The constructors of a class give new values of it. Those of built-in classes are known. -/
theorem suits_constructor (h : w.KeepsTypes) {c : ClassRef} {m : Method} (hm : m ∈ (w.classes.get c).constructors)
    (args : List Value) (store : Store) :
    Gives (w.invoke m.code (.cls c) args) store fun v _ => w.classes.suits v (.raw c) := by
  cases c with
  | host n => exact h.bodies _ _ _ (.constructor hm) args store
  | builtin b =>
    have known : (b = .list ∧ m.code = .intrinsic .listNew) ∨ (b = .map ∧ m.code = .intrinsic .mapNew) := by
      unfold Classes.get Builtin.toDef at hm
      dsimp only at hm
      split at hm
      · rw [List.mem_singleton.1 hm]
        exact .inl ⟨rfl, rfl⟩
      · rw [List.mem_singleton.1 hm]
        exact .inr ⟨rfl, rfl⟩
      · cases hm
    rcases known with ⟨rfl, code⟩ | ⟨rfl, code⟩
    · rw [code]
      exact gives_invoke ((classRef_newList [] store).weaken fun _ _ same => suits_of_eq same)
    · rw [code]
      exact gives_invoke ((classRef_newMap [] store).weaken fun _ _ same => suits_of_eq same)

/-- A new value of a class suits the class. -/
theorem suits_construct (h : w.KeepsTypes) (c : ClassRef) (args : List Value) (chosen : Option Nat) (store : Store) :
    Gives (w.construct c args chosen) store fun v _ => w.classes.suits v (.raw c) := by
  unfold construct
  dsimp only
  split
  · unfold constructPlain
    split
    · exact (classRef_newList [] store).weaken fun _ _ same => suits_of_eq same
    · exact (classRef_newMap [] store).weaken fun _ _ same => suits_of_eq same
    · exact .map fun _ _ _ => suits_of_eq rfl
    · exact .throw _
  · split
    · rename_i m found
      obtain ⟨i, -, found⟩ := Option.bind_eq_some_iff.1 found
      exact .bind fun args store' _ => suits_constructor h (List.mem_of_getElem? found) args store'
    · unfold callOverloaded
      split
      · exact .throw _
      · rename_i m params selected
        exact .bind fun args store' _ => suits_constructor h (of_select? selected).1 args store'

end World

/-- What becomes of a value that is stored: it is left as it is if nothing is known of what stores it, and otherwise it
suits the type of that. -/
inductive Classes.Stored (cs : Classes) (v : Value) : Option Ty → Value → Prop
  | plain : Stored cs v none v
  | converted {t : Ty} {r : Value} (h : cs.suits r t) : Stored cs v (some t) r

namespace Classes.Stored

variable {cs : Classes} {t : Ty} {v r : Value} {stored : Option Ty}

/-- What is stored is of the type of what stores it, or else of the type of the value. -/
theorem suits_getD (h : cs.Stored v stored r) (hv : cs.suits v t) : cs.suits r (stored.getD t) := by
  cases h with
  | plain => exact hv
  | converted suits => exact suits

/-- What is stored in a target suits its type. -/
theorem suits_target (h : cs.Stored v (Context.storedType? t) r) : cs.suits r t := by
  unfold Context.storedType? at h
  split at h
  · rename_i known
    exact suits_of_isDynamic known r
  · cases h with
    | converted suits => exact suits

end Classes.Stored

namespace Setting

variable {σ : Setting} (h : σ.world.KeepsTypes) (s : Running)
include h

theorem suits_convert (v : Value) (t : Ty) : Gives (σ.convert v t) s fun r _ => σ.world.classes.suits r t :=
  .act (World.suits_convertTo h.conversions t v s.store)

theorem stored_convert? (v : Value) (t : Option Ty) :
    Gives (σ.convert? v t) s fun r _ => σ.world.classes.Stored v t r := by
  cases t with
  | none => exact .pure .plain
  | some t => exact (suits_convert h s v t).weaken fun r _ suits => .converted suits

theorem suits_callFunction {function : Nat} {f : Function} (hf : σ.world.functions[function]? = some f)
    (args : List Value) : Gives (σ.callFunction function args) s fun v _ => σ.world.classes.suits v f.result := by
  unfold callFunction
  rw [hf]
  exact .act (.bind fun args store _ => h.bodies _ _ _ (.function (List.mem_of_getElem? hf)) args store)

theorem suits_staticField {c : ClassRef} {name : String} {f : StaticField}
    (hf : σ.world.classes.staticField? c name = some f) :
    Gives (σ.staticField c name) s fun v _ => σ.world.classes.suits v f.type := by
  unfold staticField
  rw [hf]
  exact .pure (h.fields c name f hf)

theorem suits_convertToClass (v : Value) (c : ClassRef) :
    Gives (σ.convertToClass v (.cls c)) s fun r _ => σ.world.classes.suits r (.raw c) :=
  .act (World.suits_convert h.conversions v c s.store)

theorem suits_construct (c : ClassRef) (args : List Value) (chosen : Option Nat) :
    Gives (Exec.act (σ.world.construct c args chosen)) s fun v _ => σ.world.classes.suits v (.raw c) :=
  .act (World.suits_construct h c args chosen s.store)

omit h in
theorem classRef_newArray (item : Ty) (items : List Value) :
    Gives (σ.newArray item items) s fun v _ => v.classRef = .builtin .array :=
  .act (.bind fun items store _ => World.classRef_newArray item items store)

omit h in
theorem classRef_newSized (item : Ty) (length : Value) :
    Gives (σ.newSized item length) s fun v _ => v.classRef = .builtin .array := by
  unfold newSized
  refine .bind fun n s' _ => ?_
  dsimp only
  split
  · split
    · exact .act (World.classRef_newArray item _ s'.store)
    · exact .throw _
  · exact .throw _

omit h in
theorem classRef_logic (op : LogicOp) (left right : Exec Bool) :
    Gives (logic op left right) s fun v _ => v.classRef = .builtin .boolean := by
  unfold logic
  refine .bind fun l s' _ => ?_
  cases op with
  | and =>
    dsimp only
    split
    · exact .map fun _ _ _ => rfl
    · exact .pure rfl
  | or =>
    dsimp only
    split
    · exact .pure rfl
    · exact .map fun _ _ _ => rfl

end Setting

end HostExpr
