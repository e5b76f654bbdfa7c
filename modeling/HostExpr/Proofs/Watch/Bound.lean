import HostExpr.Proofs.Execution.Steps
import HostExpr.Proofs.Watch.Follow

/-!
# What a run writes to a name

What the caller has for a name that no block declares changes only where the name itself is written: by an assignment to
it, by counting it, or by storing into it as an input. If all that is written there has a property, what is bound has it
throughout: `Action.guards_perform`.
-/

namespace HostExpr

open Typed

/-! ## The binding of one name -/

/-- No open block declares the name, and what the caller has for it has a property. -/
structure Running.Bound (name : String) (P : Option Value → Prop) (s : Running) : Prop where
  free : s.frames.lookup name = none
  bound : P (s.bindings.get? name)

namespace Running.Bound

variable {name : String} {P : Option Value → Prop} {s s' : Running}

/-- Only frames and bindings count. -/
theorem of_same (h : s.Bound name P) (frames : s'.frames = s.frames) (bindings : s'.bindings = s.bindings) :
    s'.Bound name P := by
  refine ⟨?_, ?_⟩
  · rw [frames]
    exact h.free
  · rw [bindings]
    exact h.bound

/-- Another name is bound, or this one to something with the property. -/
theorem put (h : s.Bound name P) {other : String} {v : Value} (hv : other = name → P (some v)) :
    ({ s with bindings := s.bindings.put other v } : Running).Bound name P := by
  refine ⟨h.free, ?_⟩
  show P ((s.bindings.put other v).get? name)
  rw [Table.get?_put]
  split
  · rename_i same
    exact hv same.symm
  · exact h.bound

/-- When a block is closed, no other one declares the name. -/
theorem popped (h : s.Bound name P) : ({ s with frames := s.frames.popped } : Running).Bound name P := by
  refine ⟨?_, h.bound⟩
  rw [Scopes.lookup, List.findSome?_eq_none_iff]
  exact fun frame hf => List.findSome?_eq_none_iff.1 h.free frame (List.mem_of_mem_tail hf)

end Running.Bound

namespace Exec

variable {α β : Type} {name : String} {P : Option Value → Prop}

/-- The step keeps the property of what is bound to the name, and what it gives has one of its own. -/
def Guards (name : String) (P : Option Value → Prop) (x : Exec α) (Q : α → Prop) : Prop :=
  ∀ s, s.Bound name P → (x s).2.Bound name P ∧ ∀ a, (x s).1 = .ok a → Q a

namespace Guards

variable {x : Exec α} {Q : α → Prop} {R : β → Prop}

/-- A step that leaves frames and bindings as they are. -/
theorem still (frames : ∀ s, (x s).2.frames = s.frames) (bindings : ∀ s, (x s).2.bindings = s.bindings) :
    Guards name P x fun _ => True :=
  fun s h => ⟨h.of_same (frames s) (bindings s), fun _ _ => trivial⟩

theorem gives (hx : Guards name P x fun _ => True) (h : ∀ s a, (x s).1 = .ok a → Q a) : Guards name P x Q :=
  fun s hs => ⟨(hx s hs).1, h s⟩

theorem pure {a : α} (h : Q a) : Guards name P (Pure.pure a) Q := fun _ hs => ⟨hs, fun _ ha => Except.ok.inj ha ▸ h⟩

theorem throw (e : Stop) : Guards name P (throw e : Exec α) Q := fun _ hs => ⟨hs, nofun⟩

theorem fail (e : RuntimeError) : Guards name P (Exec.fail e : Exec α) Q := throw (.runtime e)

theorem bind {f : α → Exec β} (hx : Guards name P x Q) (hf : ∀ a, Q a → Guards name P (f a) R) :
    Guards name P (x >>= f) R := by
  intro s hs
  obtain ⟨kept, gives⟩ := hx s hs
  rw [bind_eq_bindCont]
  cases hr : (x s).1 with
  | error e => exact ⟨kept, nofun⟩
  | ok a => exact hf a (gives a hr) _ kept

theorem map {f : α → β} (hx : Guards name P x Q) (h : ∀ a, Q a → R (f a)) : Guards name P (f <$> x) R :=
  hx.bind fun a ha => .pure (h a ha)

theorem act (a : Act α) : Guards name P (Exec.act a) fun _ => True := by
  refine still (fun s => ?_) fun s => ?_
  all_goals
    unfold Exec.act
    split <;> rfl

theorem ofExcept (r : Except RuntimeError α) : Guards name P (Exec.ofExcept r) fun _ => True := by
  cases r with
  | ok a => exact .pure trivial
  | error e => exact .fail e

theorem nested (limits : Limits) (hx : Guards name P x Q) : Guards name P (Exec.nested limits x) Q := by
  intro s hs
  unfold Exec.nested
  split
  · exact ⟨hs, nofun⟩
  · obtain ⟨kept, gives⟩ := hx { s with depth := s.depth + 1 } (hs.of_same rfl rfl)
    exact ⟨kept.of_same rfl rfl, gives⟩

theorem atSite (site : Nat) (through : Site → Act α × Site) (otherwise : Act α) :
    Guards name P (Exec.atSite site through otherwise) fun _ => True := by
  intro s hs
  unfold Exec.atSite
  split
  · exact act _ _ (hs.of_same rfl rfl)
  · exact act _ _ hs

theorem tick (limits : Limits) : Guards name P (Exec.tick limits) fun _ => True := by
  refine still (fun s => ?_) fun s => ?_
  all_goals rw [tick_eq]

/-- What is read is what is bound, or null. -/
theorem readName : Guards name P (Exec.readName name) fun v => ∃ bound, P bound ∧ v = bound.getD .null := by
  refine fun s hs => ⟨hs, fun v hv => ⟨s.bindings.get? name, hs.bound, ?_⟩⟩
  have read : ((s.frames.lookup name).or (s.bindings.get? name)).getD .null = v := Except.ok.inj hv
  rw [hs.free] at read
  exact read.symm

section

variable {other : String} {v : Value}

theorem bindName (hv : other = name → P (some v)) : Guards name P (Exec.bind other v) fun _ => True :=
  fun _ hs => ⟨hs.put hv, fun _ _ => trivial⟩

/-- A change of the state that keeps the binding. -/
theorem modify {f : Running → Running} (kept : ∀ s, s.Bound name P → (f s).Bound name P) :
    Guards name P (modifyThe Running f) fun _ => True := fun s hs => ⟨kept s hs, fun _ _ => trivial⟩

theorem writeName (hv : other = name → P (some v)) : Guards name P (Exec.writeName other v) fun _ => True := by
  refine modify fun s hs => ?_
  cases assigned : s.frames.assign? other v with
  | none => exact hs.put hv
  | some frames =>
    refine ⟨?_, hs.bound⟩
    -- an open block that has the name would show it
    have differs : name ≠ other := by
      rintro rfl
      have known := s.frames.isSome_assign? name v
      rw [assigned, hs.free] at known
      cases known
    show frames.lookup name = none
    rw [Scopes.lookup_assign? assigned, if_neg differs]
    exact hs.free

theorem declare (differs : other ≠ name) : Guards name P (Exec.declare other v) fun _ => True := by
  refine modify fun s hs => ?_
  cases declared : s.frames.declare other v with
  | error e => exact hs.put fun same => absurd same differs
  | ok frames =>
    refine ⟨?_, hs.bound⟩
    show frames.lookup name = none
    rw [Scopes.lookup_declare declared, if_neg fun same => differs same.symm]
    exact hs.free

end

end Guards

end Exec

/-! ## Steps -/

namespace Setting

variable {name : String} {P : Option Value → Prop}

theorem guards_convert? (σ : Setting) (v : Value) (t : Option Ty) :
    Exec.Guards name P (σ.convert? v t) fun _ => True := by
  cases t with
  | none => exact .pure trivial
  | some t => exact .act _

theorem guards_counted (σ : Setting) (op : StepOp) (t : Ty) (old : Value) :
    Exec.Guards name P (σ.counted op t old) fun _ => True :=
  (Exec.Guards.act _).bind fun new _ => σ.guards_convert? new _

theorem guards_staticField (σ : Setting) (c : ClassRef) (field : String) :
    Exec.Guards name P (σ.staticField c field) fun _ => True := by
  unfold staticField
  split
  · exact .pure trivial
  · exact .fail _

theorem guards_callFunction (σ : Setting) (function : Nat) (args : List Value) :
    Exec.Guards name P (σ.callFunction function args) fun _ => True := by
  unfold callFunction
  split
  · exact .act _
  · exact .pure trivial

theorem guards_convertToClass (σ : Setting) (v target : Value) :
    Exec.Guards name P (σ.convertToClass v target) fun _ => True := by
  unfold convertToClass
  split
  · exact .act _
  · exact .fail _

theorem guards_unary (σ : Setting) (op : UnaryOp) (operand : Value) :
    Exec.Guards name P (σ.unary op operand) fun _ => True := by
  cases op with
  | neg => exact .ofExcept _
  | not => exact (Exec.Guards.act (σ.world.truth operand)).map fun _ _ => trivial

theorem guards_newSized (σ : Setting) (item : Ty) (length : Value) :
    Exec.Guards name P (σ.newSized item length) fun _ => True := by
  unfold newSized
  refine (Exec.Guards.act _).bind fun n _ => ?_
  split
  · split
    · exact .act _
    · exact .fail _
  · exact .fail _

theorem guards_itemsOf (σ : Setting) (v : Value) : Exec.Guards name P (σ.itemsOf v) fun _ => True := by
  unfold itemsOf
  split
  · exact .act _
  · exact .act _
  · exact .act _
  · exact .pure trivial
  · exact .pure trivial
  · exact .fail _

theorem guards_readInput (σ : Setting) (input : String) (site : Nat) :
    Exec.Guards name P (σ.readInput input site) fun _ => True := by
  refine fun s hs => ⟨?_, fun _ _ => trivial⟩
  unfold readInput
  split
  · exact hs
  · split
    · exact hs
    · have kept : (σ.getProperty σ.root input site s).2.Bound name P := (Exec.Guards.atSite _ _ _ s hs).1
      split
      · rename_i failed
        rw [failed] at kept
        exact kept
      · exact kept

theorem guards_writeInput (σ : Setting) {input : String} {v : Value} (hv : input = name → P (some v)) (site : Nat) :
    Exec.Guards name P (σ.writeInput input site v) fun _ => True := by
  intro s hs
  unfold writeInput
  split
  · exact Exec.Guards.bindName hv s hs
  · have kept : (σ.setProperty σ.root input site v s).2.Bound name P := (Exec.Guards.atSite _ _ _ s hs).1
    split
    · rename_i failed
      rw [failed] at kept
      split
      · exact Exec.Guards.bindName hv _ kept
      · exact ⟨kept, nofun⟩
    · exact ⟨kept, fun _ _ => trivial⟩

/-- What the nodes write to the name has the property: what is assigned, what comes of counting, and what is stored into
an input. -/
structure Stores (σ : Setting) (nodes : List Expr) (name : String) (P : Option Value → Prop) : Prop where
  assigned : ∀ i j op e stored, .assign i (.declared j name) op e stored ∈ nodes → ∀ v s r,
    (σ.convert? v stored s).1 = .ok r → P (some r)
  counted : ∀ j, .declared j name ∈ nodes → ∀ op bound, P bound → ∀ s r,
    (σ.counted op j.type (bound.getD .null) s).1 = .ok r → P (some r)
  input : ∀ j site, .input j name site ∈ nodes → ∀ v, P (some v)

/-- A place is written; a name that it is may be the one. -/
theorem guards_writePlace (σ : Setting) {target : Expr} {place : Place} (at_ : place.At target) {v : Value}
    (declared : ∀ j, target = .declared j name → P (some v))
    (input : ∀ j site, target = .input j name site → P (some v)) :
    Exec.Guards name P (σ.writePlace v place) fun _ => True := by
  cases place with
  | property receiver other site => exact .atSite _ _ _
  | index receiver position site => exact .atSite _ _ _
  | name written =>
    obtain rfl : written = target := at_
    show Exec.Guards name P (σ.writeTarget written v) _
    unfold writeTarget
    split
    · rename_i j other
      exact .writeName fun same => declared j (same ▸ rfl)
    · rename_i j other site
      exact σ.guards_writeInput (fun same => input j site (by rw [same])) site
    · exact .fail _

end Setting

/-- A step of the nodes keeps the property, if what they write has it and no name that they declare is the one. -/
theorem Action.guards_perform {σ : Setting} {nodes : List Expr} {names : List String} {name : String}
    {P : Option Value → Prop} (stores : σ.Stores nodes name P) (out : name ∉ names) (a : Action)
    (within : a.Within nodes names) : Exec.Guards name P (a.perform σ) fun _ => True := by
  have differs {other : String} (listed : other ∈ names) : other ≠ name := fun same => out (same ▸ listed)
  cases a with
  | readName other => exact .still (fun _ => rfl) fun _ => rfl
  | readInput other site => exact σ.guards_readInput other site
  | staticField c field => exact σ.guards_staticField c field
  | getProperty receiver other site => exact .atSite _ _ _
  | callMethod receiver other args site => exact .atSite _ _ _
  | callFunction function args => exact σ.guards_callFunction function args
  | convertToClass v target => exact σ.guards_convertToClass v target
  | getIndex receiver position site => exact .atSite _ _ _
  | assign v stored place =>
    obtain ⟨i, target, op, e, written, known, at_⟩ := within
    refine Exec.Guards.bind (Q := fun new => ∀ j, target = .declared j name → P (some new)) ?_ fun new fits => ?_
    · refine (σ.guards_convert? v stored).gives fun s new given j same => ?_
      subst same
      exact stores.assigned i j op e stored written v s new given
    · refine (σ.guards_writePlace at_ fits fun j site same => ?_).bind fun _ _ => .pure trivial
      exact stores.input j site (same ▸ known) new
  | count op type old place =>
    obtain ⟨target, known, plain, at_⟩ := within
    refine (σ.guards_counted op type old).bind fun new _ => ?_
    refine (σ.guards_writePlace at_ (fun j same => absurd same (plain j name)) fun j site same => ?_).bind
      fun _ _ => .pure trivial
    exact stores.input j site (same ▸ known) new
  | countName op type other =>
    obtain ⟨span, known⟩ := within
    -- if it is the name itself that is counted, what was bound to it before has the property
    by_cases same : other = name
    · subst same
      refine (Exec.Guards.nested σ.limits .readName).bind fun old ⟨bound, has, read⟩ => ?_
      subst read
      refine Exec.Guards.bind (Q := fun new => P (some new)) ?_ fun new fits => ?_
      · exact (σ.guards_counted op type _).gives fun s new given => stores.counted _ known op bound has s new given
      · exact (Exec.Guards.writeName fun _ => fits).bind fun _ _ => .pure trivial
    · have read : Exec.Guards name P (Exec.readName other) fun _ => True := .still (fun _ => rfl) fun _ => rfl
      refine (read.nested σ.limits).bind fun old _ => (σ.guards_counted op type old).bind fun new _ => ?_
      exact (Exec.Guards.writeName fun same' => absurd same' same).bind fun _ _ => .pure trivial
  | arith op left right => exact .act _
  | compare op left right => exact (Exec.Guards.act _).map fun _ _ => trivial
  | unary op operand => exact σ.guards_unary op operand
  | truth v => exact .act _
  | fit v t => exact σ.guards_convert? v t
  | construct c args chosen => exact .act _
  | newArray item items => exact .act _
  | newSized item length => exact σ.guards_newSized item length
  | newList items => exact .act _
  | newMap entries => exact .act _
  | declare other declared v inBlock =>
    refine (σ.guards_convert? v declared).bind fun v _ => ?_
    cases inBlock with
    | true => exact (Exec.Guards.declare (differs within)).bind fun _ _ => .pure trivial
    | false => exact (Exec.Guards.bindName fun same => absurd same (differs within)).bind fun _ _ => .pure trivial
  | nameItem other v => exact .declare (differs within)
  | itemsOf v => exact σ.guards_itemsOf v
  | tick => exact .tick σ.limits
  | giveUp => exact .throw .outOfFuel

end HostExpr
