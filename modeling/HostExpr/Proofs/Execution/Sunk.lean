import HostExpr.Proofs.Execution.Steps
import HostExpr.Proofs.Typing.Shifted

/-!
# A run one level deeper

An expression whose call sites are numbered higher comes to the same one level deeper: `Sinks` says so of a step and the
one beside it, unless the second one is stopped for being too deep. Beside that, the binding of a name stays that the
expression does not have.
-/

namespace HostExpr

open Typed

namespace Place

/-- The place with its call site numbered higher. -/
def shifted (k : Nat) : Place → Place
  | name target => name (target.shifted k)
  | property receiver member site => property receiver member (site + k)
  | index receiver position site => index receiver position (site + k)

/-- The place is no place of the name. -/
def Lacks (p : String) : Place → Prop
  | name target => target.Lacks p
  | property .. | index .. => True

end Place

namespace Running

/-- Another state is this one a level deeper, with the call sites numbered higher; a name is bound to a value. -/
inductive Above (k : Nat) (p : String) (u : Value) (s : Running) : Running → Prop
  | intro (sites : Array Site) (shift : ∀ i, sites[i + k]? = s.sites[i]?) (bound : s.bindings.get? p = some u) :
    Above k p u s { s with sites := sites, depth := s.depth + 1 }

/-- Both states come back from a level. -/
theorem Above.left {k : Nat} {p : String} {u : Value} {s t : Running} (h : s.Above k p u t) (inside : 0 < s.depth) :
    ({ s with depth := s.depth - 1 } : Running).Above k p u { t with depth := t.depth - 1 } := by
  obtain ⟨sites, shift, bound⟩ := h
  have level : s.depth + 1 - 1 = s.depth - 1 + 1 := by omega
  dsimp only
  rw [level]
  exact ⟨sites, shift, bound⟩

end Running

namespace Exec

variable {α β α' β' : Type}

/-- What has been stopped for being too deep. -/
def TooDeep (outcome : Except Stop α) : Prop := ∃ depth limit, outcome = .error (.stackOverflow depth limit)

/-- What is not too deep is done one level deeper. -/
theorem nested_of_lt {limits : Limits} (x : Exec α) {s : Running} (h : s.depth < limits.maxDepth) :
    nested limits x s = ((x { s with depth := s.depth + 1 }).1,
      { (x { s with depth := s.depth + 1 }).2 with depth := (x { s with depth := s.depth + 1 }).2.depth - 1 }) :=
  if_neg (Nat.not_le.2 h)

/-- What came of a step from a level and of another one from the level below: the same, but for the form of what they
give, unless the second was too deep. -/
def Below (k : Nat) (p : String) (u : Value) (f : α → β) (level : Nat) (r : Except Stop α × Running)
    (r' : Except Stop β × Running) : Prop :=
  TooDeep r'.1 ∨ (r'.1 = r.1.map f ∧ r.2.Above k p u r'.2 ∧ r.2.depth = level)

/-- The second step comes to the same one level deeper, but for the form of what it gives, unless it is too deep. Both
come back to the level that they start from. -/
def Sinks (k : Nat) (p : String) (u : Value) (f : α → β) (x : Exec α) (y : Exec β) : Prop :=
  ∀ s t, s.Above k p u t → Below k p u f s.depth (x s) (y t)

/-- The step comes to the same one level deeper, unless it is too deep. -/
abbrev Sunk (k : Nat) (p : String) (u : Value) (x : Exec α) : Prop := Sinks k p u id x x

namespace Sinks

variable {k : Nat} {p : String} {u : Value} {f : α → β} {g : α' → β'}

theorem pure (a : α) : Sinks k p u f (Pure.pure a) (Pure.pure (f a)) := fun _ _ h => .inr ⟨rfl, h, rfl⟩

theorem fail (e : RuntimeError) : Sinks k p u f (Exec.fail e) (Exec.fail e) := fun _ _ h => .inr ⟨rfl, h, rfl⟩

/-- One step after the other. -/
theorem bind {x : Exec α} {y : Exec β} {next : α → Exec α'} {next' : β → Exec β'} (hx : Sinks k p u f x y)
    (hn : ∀ a, Sinks k p u g (next a) (next' (f a))) : Sinks k p u g (x >>= next) (y >>= next') := by
  intro s t above
  rw [bind_eq_bindCont, bind_eq_bindCont]
  obtain ⟨depth, limit, deep⟩ | ⟨same, after, level⟩ := hx s t above
  · rw [deep]
    exact .inl ⟨depth, limit, rfl⟩
  · rw [same]
    cases (x s).1 with
    | ok a =>
      obtain deep | ⟨same, after, kept⟩ := hn a _ _ after
      · exact .inl deep
      · exact .inr ⟨same, after, kept.trans level⟩
    | error e => exact .inr ⟨rfl, after, level⟩

theorem ite {c : Prop} [Decidable c] {x x' : Exec α} {y y' : Exec β} (hx : Sinks k p u f x y)
    (hx' : Sinks k p u f x' y') : Sinks k p u f (if c then x else x') (if c then y else y') := by
  split
  · exact hx
  · exact hx'

/-- What is done one level deeper may be too deep. -/
theorem nested (limits : Limits) {x : Exec α} {y : Exec β} (hx : Sinks k p u f x y) :
    Sinks k p u f (Exec.nested limits x) (Exec.nested limits y) := by
  rintro s _ ⟨sites, shift, bound⟩
  by_cases deep : limits.maxDepth ≤ s.depth + 1
  · refine .inl ⟨s.depth + 1, limits.maxDepth, ?_⟩
    unfold Exec.nested
    rw [if_pos deep]
  · rw [nested_of_lt x (Nat.lt_of_succ_lt (Nat.lt_of_not_le deep)), nested_of_lt y (Nat.lt_of_not_le deep)]
    obtain tooDeep | ⟨same, after, level⟩ := hx { s with depth := s.depth + 1 } _ ⟨sites, shift, bound⟩
    · exact .inl tooDeep
    · refine .inr ⟨same, after.left ?_, ?_⟩
      · rw [level]
        exact Nat.succ_pos _
      · dsimp only
        rw [level, Nat.add_sub_cancel]

theorem map {x y : Exec α} (f : α → β) (hx : Sinks k p u id x y) : Sinks k p u id (f <$> x) (f <$> y) :=
  hx.bind fun a => .pure (f := id) (f a)

theorem act (a : Act α) : Sunk k p u (Exec.act a) := by
  rintro s _ ⟨sites, shift, bound⟩
  unfold Exec.act
  dsimp only
  split
  · exact .inr ⟨rfl, ⟨sites, shift, bound⟩, rfl⟩
  · exact .inr ⟨rfl, ⟨sites, shift, bound⟩, rfl⟩

/-- A call site is used: in the second state, the one that is numbered higher. -/
theorem atSite (site : Nat) (through : Site → Act α × Site) (otherwise : Act α) :
    Sinks k p u id (Exec.atSite site through otherwise) (Exec.atSite (site + k) through otherwise) := by
  rintro s _ ⟨sites, shift, bound⟩
  unfold Exec.atSite
  dsimp only
  rw [shift site]
  cases found : s.sites[site]? with
  | none => exact act otherwise s _ ⟨sites, shift, bound⟩
  | some given =>
    refine act _ { s with sites := s.sites.setIfInBounds site (through given).2 } _ ⟨_, fun i => ?_, bound⟩
    have there : site < s.sites.size := (Array.getElem?_eq_some_iff.1 found).1
    have there' : site + k < sites.size := (Array.getElem?_eq_some_iff.1 ((shift site).trans found)).1
    by_cases same : site = i
    · rw [← same, Array.getElem?_setIfInBounds_self_of_lt there, Array.getElem?_setIfInBounds_self_of_lt there']
    · rw [Array.getElem?_setIfInBounds_ne (by omega), Array.getElem?_setIfInBounds_ne same, shift]

end Sinks

namespace Sunk

variable {k : Nat} {p : String} {u : Value}

theorem ofExcept (r : Except RuntimeError α) : Sunk k p u (Exec.ofExcept r) := by
  cases r with
  | ok a => exact .pure a
  | error e => exact .fail e

theorem readName (name : String) : Sunk k p u (Exec.readName name) := by
  rintro s _ ⟨sites, shift, bound⟩
  exact .inr ⟨rfl, ⟨sites, shift, bound⟩, rfl⟩

/-- What is stored under another name leaves the binding. -/
theorem get?_put_of_ne {t : Table Value} {name : String} (other : name ≠ p) (v : Value) (h : t.get? p = some u) :
    (t.put name v).get? p = some u := by
  rw [Table.get?_put, if_neg (Ne.symm other), h]

theorem bindName {name : String} (other : name ≠ p) (v : Value) : Sunk k p u (Exec.bind name v) := by
  rintro s _ ⟨sites, shift, bound⟩
  exact .inr ⟨rfl, ⟨sites, shift, get?_put_of_ne other v bound⟩, rfl⟩

theorem writeName {name : String} (other : name ≠ p) (v : Value) : Sunk k p u (Exec.writeName name v) := by
  rintro s _ ⟨sites, shift, bound⟩
  change Below k p u id s.depth (.ok (), _) (.ok (), _)
  dsimp only
  cases s.frames.assign? name v with
  | some frames => exact .inr ⟨rfl, ⟨sites, shift, bound⟩, rfl⟩
  | none => exact .inr ⟨rfl, ⟨sites, shift, get?_put_of_ne other v bound⟩, rfl⟩

end Sunk

end Exec

/-! ## The steps of a run -/

namespace Setting

open Exec

variable (σ : Setting) {k : Nat} {p : String} {u : Value}

theorem sinks_readInput (name : String) (site : Nat) :
    Sinks k p u id (σ.readInput name site) (σ.readInput name (site + k)) := by
  intro s t above
  have access : Below k p u id s.depth (σ.getProperty σ.root name site s) (σ.getProperty σ.root name (site + k) t) :=
    Sinks.atSite site _ _ s t above
  have same : t.bindings = s.bindings := by
    cases above
    rfl
  unfold readInput
  rw [same]
  cases s.bindings.get? name with
  | some v => exact .inr ⟨rfl, above, rfl⟩
  | none =>
    dsimp only
    split
    · exact .inr ⟨rfl, above, rfl⟩
    · generalize σ.getProperty σ.root name site s = r at access
      generalize σ.getProperty σ.root name (site + k) t = r' at access
      obtain ⟨outcome, s'⟩ := r
      obtain ⟨outcome', t'⟩ := r'
      obtain ⟨depth, limit, rfl⟩ | ⟨rfl, after, level⟩ := access
      · exact .inl ⟨depth, limit, rfl⟩
      · cases outcome with
        | error e => exact .inr ⟨rfl, after, level⟩
        | ok v => exact .inr ⟨rfl, after, level⟩

theorem sinks_writeInput {name : String} (other : name ≠ p) (site : Nat) (v : Value) :
    Sinks k p u id (σ.writeInput name site v) (σ.writeInput name (site + k) v) := by
  intro s t above
  have access : Below k p u id s.depth (σ.setProperty σ.root name site v s)
      (σ.setProperty σ.root name (site + k) v t) := Sinks.atSite site _ _ s t above
  have same : t.bindings = s.bindings := by
    cases above
    rfl
  unfold writeInput
  rw [same]
  split
  · exact Sunk.bindName other v s t above
  · generalize σ.setProperty σ.root name site v s = r at access
    generalize σ.setProperty σ.root name (site + k) v t = r' at access
    obtain ⟨outcome, s'⟩ := r
    obtain ⟨outcome', t'⟩ := r'
    -- either the moved run was stopped for its depth, or both end alike and write the same
    obtain ⟨depth, limit, rfl⟩ | ⟨rfl, after, level⟩ := access
    · exact .inl ⟨depth, limit, rfl⟩
    · cases outcome with
      | ok v => exact .inr ⟨rfl, after, level⟩
      | error e =>
        show Below k p u id s.depth (if lacksMember e then Exec.bind name v s' else (.error e, s'))
          (if lacksMember e then Exec.bind name v t' else (.error e, t'))
        split
        · rw [← level]
          exact Sunk.bindName other v s' t' after
        · exact .inr ⟨rfl, after, level⟩

theorem sinks_writePlace (v : Value) {place : Place} (lacks : place.Lacks p) :
    Sinks k p u id (σ.writePlace v place) (σ.writePlace v (place.shifted k)) := by
  cases place with
  | property receiver name site => exact .atSite _ _ _
  | index receiver position site => exact .atSite _ _ _
  | name target =>
    have other : target.named? ≠ some p := lacks target List.mem_cons_self
    show Sinks k p u id (σ.writeTarget target v) (σ.writeTarget (target.shifted k) v)
    cases target with
    | declared i name => exact Sunk.writeName (fun same => other (congrArg some same)) v
    | input i name site => exact σ.sinks_writeInput (fun same => other (congrArg some same)) site v
    | _ => exact .fail _

theorem sinks_readPlace {x y : Exec Value} (hx : Sinks k p u id x y) (place : Place) :
    Sinks k p u id (σ.readPlace x place) (σ.readPlace y (place.shifted k)) := by
  cases place with
  | name target => exact hx
  | property receiver name site => exact .atSite _ _ _
  | index receiver position site => exact .atSite _ _ _

theorem sunk_convert? (v : Value) (t : Option Ty) : Sunk k p u (σ.convert? v t) := by
  cases t with
  | none => exact .pure _
  | some t => exact .act _

theorem sunk_counted (op : StepOp) (type : Ty) (old : Value) : Sunk k p u (σ.counted op type old) := by
  unfold counted
  exact .bind (.act _) fun new => σ.sunk_convert? new _

theorem sunk_staticField (c : ClassRef) (field : String) : Sunk k p u (σ.staticField c field) := by
  unfold staticField
  split
  · exact .pure _
  · exact .fail _

theorem sunk_callFunction (function : Nat) (args : List Value) : Sunk k p u (σ.callFunction function args) := by
  unfold callFunction
  split
  · exact .act _
  · exact .pure _

theorem sunk_convertToClass (v target : Value) : Sunk k p u (σ.convertToClass v target) := by
  unfold convertToClass
  split
  · exact .act _
  · exact .fail _

theorem sunk_newSized (item : Ty) (length : Value) : Sunk k p u (σ.newSized item length) := by
  unfold newSized
  refine .bind (.act _) fun n => ?_
  dsimp only [id]
  split
  · exact .ite (.act _) (.fail _)
  · exact .fail _

theorem sunk_unary (op : UnaryOp) (operand : Value) : Sunk k p u (σ.unary op operand) := by
  cases op with
  | neg => exact .ofExcept _
  | not => exact .bind (.act _) fun _ => .pure _

theorem sinks_combine (op : AssignOp) {x x' y y' : Exec Value} (hx : Sinks k p u id x y)
    (hx' : Sinks k p u id x' y') : Sinks k p u id (σ.combine op x x') (σ.combine op y y') := by
  cases op with
  | plain => exact hx'
  | compound op => exact hx.bind fun old => hx'.bind fun operand => .act _

theorem sinks_logic (op : LogicOp) {x x' y y' : Exec Bool} (hx : Sinks k p u id x y) (hx' : Sinks k p u id x' y') :
    Sinks k p u id (logic op x x') (logic op y y') := by
  refine hx.bind fun l => ?_
  cases op <;> cases l
  · exact .pure _
  · exact hx'.map _
  · exact hx'.map _
  · exact .pure _

end Setting

end HostExpr
