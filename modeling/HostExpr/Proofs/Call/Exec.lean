import HostExpr.Execution.Expr
import HostExpr.Proofs.Call.Access
import HostExpr.Proofs.Execution.Steps
import HostExpr.Proofs.Typing.Program

/-!
# Steps of a run that call bodies well

A step of a running program goes on from one state to another: its call sites stay bound as they should be, no binding
is given up, and what is new in the trace are good calls. A step that lacks an input lacks one that the program reads
and that is not bound, unless a body has reported it: `Exec.Proper`.
-/

namespace HostExpr

open Typed

namespace Typed.Program

/-- Some part of the program reads the name as an input. -/
def Reads (p : Program) (name : String) : Prop := ∃ info site, Expr.input info name site ∈ Stmt.partsAll p.body

/-- The call sites are bound as they should be, each to the member that the program accesses through it. -/
def Binds (p : Program) (cs : Classes) (sites : Array Site) : Prop :=
  ∀ (i : Nat) (site : Site), sites[i]? = some site → site.Bound cs (p.memberAt i)

/-- A site is kept as an access leaves it. -/
theorem Binds.set {p : Program} {cs : Classes} {sites : Array Site} (h : p.Binds cs sites) {i : Nat} {kept : Site}
    (hk : kept.Bound cs (p.memberAt i)) : p.Binds cs (sites.setIfInBounds i kept) := by
  intro j site hj
  rw [Array.getElem?_setIfInBounds] at hj
  split at hj
  · rename_i same
    subst same
    split at hj
    · cases hj
      exact hk
    · cases hj
  · exact h j site hj

end Typed.Program

/-! ## States -/

/-- The later state comes from the first one by steps that call bodies well. Beside the calls, which are new in the
trace, they keep call sites and bindings. -/
structure Running.Advances (w : World) (p : Program) (s : Running) (new : List Event) (s' : Running) : Prop where
  sites : p.Binds w.classes s'.sites
  bindings : ∀ name, s.bindings.has name → s'.bindings.has name
  trace : s'.store.trace = new ++ s.store.trace
  proper : w.KeepsPromises → ∀ event ∈ new, w.ProperEvent event

namespace Running.Advances

variable {w : World} {p : Program} {s s' s'' : Running} {new more : List Event}

/-- Steps that ask nothing of the outside. -/
theorem still (sites : p.Binds w.classes s'.sites) (bindings : ∀ name, s.bindings.has name → s'.bindings.has name)
    (store : s'.store = s.store) : Advances w p s [] s' := by
  refine ⟨sites, bindings, ?_, fun _ event he => ?_⟩
  · rw [store]
    rfl
  · cases he

theorem trans (h : Advances w p s new s') (h' : Advances w p s' more s'') : Advances w p s (more ++ new) s'' where
  sites := h'.sites
  bindings name hn := h'.bindings name (h.bindings name hn)
  trace := by rw [h'.trace, h.trace, List.append_assoc]
  proper promised event he := by
    rcases List.mem_append.1 he with he | he
    · exact h'.proper promised event he
    · exact h.proper promised event he

end Running.Advances

/-! ## Steps -/

namespace Exec

variable {α β : Type} {w : World} {p : Program}

/-- The step only calls bodies well. If it fails for an input without a value, a body has reported this, or the program
reads the name as an input and the name is not bound. What it gives has a property. -/
def Proper (w : World) (p : Program) (x : Exec α) (Q : α → Prop) : Prop :=
  ∀ s, p.Binds w.classes s.sites → ∃ new, Running.Advances w p s new (x s).2
    ∧ (∀ name, (x s).1 = .error (.runtime (.unboundInput name)) →
        Reported new name ∨ p.Reads name ∧ ¬ (x s).2.bindings.has name)
    ∧ ∀ a, (x s).1 = .ok a → Q a

namespace Proper

variable {x : Exec α} {Q : α → Prop} {R : β → Prop}

/-- A step that asks nothing of the outside and does not lack an input. -/
theorem still (store : ∀ s, (x s).2.store = s.store) (sites : ∀ s, (x s).2.sites = s.sites)
    (bindings : ∀ s name, s.bindings.has name → (x s).2.bindings.has name)
    (bound : ∀ s name, (x s).1 ≠ .error (.runtime (.unboundInput name))) (h : ∀ s a, (x s).1 = .ok a → Q a) :
    Proper w p x Q := by
  intro s hs
  refine ⟨[], .still ?_ (bindings s) (store s), fun name he => absurd he (bound s name), h s⟩
  rw [sites s]
  exact hs

theorem pure {a : α} (h : Q a) : Proper w p (Pure.pure a) Q := by
  refine still (fun _ => rfl) (fun _ => rfl) (fun _ _ hn => hn) (fun _ _ he => by cases he) fun s a' ha => ?_
  cases ha
  exact h

theorem throw {e : Stop} (h : ∀ name, e ≠ .runtime (.unboundInput name)) : Proper w p (throw e : Exec α) Q := by
  refine still (fun _ => rfl) (fun _ => rfl) (fun _ _ hn => hn) (fun s name he => ?_) fun s a ha => by cases ha
  exact h name (Except.error.inj he)

theorem fail {e : RuntimeError} (h : ∀ name, e ≠ .unboundInput name) : Proper w p (Exec.fail e : Exec α) Q :=
  throw fun name he => h name (Stop.runtime.inj he)

/-- One step after the other. -/
theorem bind {f : α → Exec β} (hx : Proper w p x Q) (hf : ∀ a, Q a → Proper w p (f a) R) :
    Proper w p (x >>= f) R := by
  intro s hs
  obtain ⟨new, advances, lacks, gives⟩ := hx s hs
  rw [bind_eq_bindCont]
  cases hr : (x s).1 with
  | error e =>
    refine ⟨new, advances, fun name he => lacks name ?_, fun a ha => by cases ha⟩
    rw [hr, Except.error.inj he]
  | ok a =>
    obtain ⟨more, advances', lacks', gives'⟩ := hf a (gives a hr) (x s).2 advances.sites
    refine ⟨more ++ new, advances.trans advances', fun name he => ?_, gives'⟩
    rcases lacks' name he with reported | lacking
    · exact .inl (reported.mono (List.subset_append_left _ _))
    · exact .inr lacking

theorem map {f : α → β} (hx : Proper w p x Q) (h : ∀ a, Q a → R (f a)) : Proper w p (f <$> x) R :=
  hx.bind fun a ha => .pure (h a ha)

/-- A computation on the store. -/
theorem act {a : Act α} (ha : Act.Proper w a Q) : Proper w p (Exec.act a) Q := by
  intro s hs
  obtain ⟨new, grown, good, reported, gives⟩ := ha s.store
  unfold Exec.act
  split
  · rename_i r store hr
    rw [hr] at grown gives
    exact ⟨new, ⟨hs, fun _ hn => hn, grown, good⟩, nofun, fun a ha => gives a (by rw [Except.ok.inj ha])⟩
  · rename_i e store hr
    rw [hr] at grown reported
    refine ⟨new, ⟨hs, fun _ hn => hn, grown, good⟩, fun name he => .inl (reported name ?_), nofun⟩
    rw [Stop.runtime.inj (Except.error.inj he)]

theorem ofExcept {r : Except RuntimeError α} (h : ∀ e, r = .error e → ∀ name, e ≠ .unboundInput name) :
    Proper w p (Exec.ofExcept r) fun _ => True := by
  cases r with
  | ok a => exact .pure trivial
  | error e => exact .fail (h e rfl)

theorem nested (limits : Limits) (hx : Proper w p x Q) : Proper w p (Exec.nested limits x) Q := by
  intro s hs
  unfold Exec.nested
  split
  · exact ⟨[], .still hs (fun _ hn => hn) rfl, nofun, nofun⟩
  · obtain ⟨new, advances, lacks, gives⟩ := hx { s with depth := s.depth + 1 } hs
    exact ⟨new, ⟨advances.sites, advances.bindings, advances.trace, advances.proper⟩, lacks, gives⟩

theorem inBlock (hx : Proper w p x Q) : Proper w p (Exec.inBlock x) Q := by
  intro s hs
  obtain ⟨new, advances, lacks, gives⟩ := hx { s with frames := s.frames.push } hs
  exact ⟨new, ⟨advances.sites, advances.bindings, advances.trace, advances.proper⟩, lacks, gives⟩

theorem tick (limits : Limits) : Proper w p (Exec.tick limits) fun _ => True := by
  intro s hs
  rw [tick_eq]
  refine ⟨[], .still hs (fun _ hn => hn) rfl, fun name he => ?_, fun _ _ => trivial⟩
  -- a turn too many is the only failure of a count
  unfold Limits.counted at he
  split at he
  · split at he <;> cases he
  · cases he

theorem readName (name : String) : Proper w p (Exec.readName name) fun _ => True :=
  still (fun _ => rfl) (fun _ => rfl) (fun _ _ hn => hn) (fun _ _ he => by cases he) fun _ _ _ => trivial

/-- A change of the state that gives up no binding. -/
theorem modify {f : Running → Running} (store : ∀ s, (f s).store = s.store) (sites : ∀ s, (f s).sites = s.sites)
    (bindings : ∀ s name, s.bindings.has name → (f s).bindings.has name) :
    Proper w p (modifyThe Running f) fun _ => True :=
  still store sites bindings (fun _ _ he => by cases he) fun _ _ _ => trivial

theorem bindName (name : String) (v : Value) : Proper w p (Exec.bind name v) fun _ => True := by
  refine modify (fun _ => rfl) (fun _ => rfl) fun s n hn => ?_
  simp [hn]

theorem writeName (name : String) (v : Value) : Proper w p (Exec.writeName name v) fun _ => True := by
  refine modify (fun s => ?_) (fun s => ?_) fun s n hn => ?_
  · split <;> rfl
  · split <;> rfl
  · split
    · exact hn
    · simp [hn]

theorem declare (name : String) (v : Value) : Proper w p (Exec.declare name v) fun _ => True := by
  refine modify (fun s => ?_) (fun s => ?_) fun s n hn => ?_
  · split <;> rfl
  · split <;> rfl
  · split
    · exact hn
    · simp [hn]

/-- A use of a call site, with or without the site. -/
theorem atSite {site : Nat} {m : Member} (hm : p.memberAt site = m) {through : Site → Act α × Site}
    {otherwise : Act α} (kept : ∀ given : Site, given.Bound w.classes m → (through given).2.Bound w.classes m)
    (sited : ∀ given : Site, given.Bound w.classes m → Act.Proper w (through given).1 Q)
    (looked : Act.Proper w otherwise Q) : Proper w p (Exec.atSite site through otherwise) Q := by
  subst hm
  intro s hs
  unfold Exec.atSite
  split
  · rename_i given found
    have bound := hs site given found
    obtain ⟨new, advances, lacks, gives⟩ :=
      act (p := p) (sited given bound) { s with sites := s.sites.setIfInBounds site (through given).2 }
        (hs.set (kept given bound))
    exact ⟨new, ⟨advances.sites, advances.bindings, advances.trace, advances.proper⟩, lacks, gives⟩
  · exact act looked s hs

end Proper

/-- A step that has come to something keeps the call sites bound as they should be. -/
theorem Proper.of_ok {x : Exec α} {Q : α → Prop} (hx : Proper w p x Q) {s s' : Running}
    (sited : p.Binds w.classes s.sites) {a : α} (h : x s = (.ok a, s')) : p.Binds w.classes s'.sites ∧ Q a := by
  obtain ⟨_, advances, -, gives⟩ := hx s sited
  have sites := advances.sites
  rw [h] at sites
  exact ⟨sites, gives a (congrArg Prod.fst h)⟩

/-! ## Call sites that do what the lookup does -/

section

variable {site : Nat} {m : Member} {through : Site → Act α × Site} {otherwise : Act α} {s s' : Running} {r : α}
  (hm : p.memberAt site = m)
  (kept : ∀ given : Site, given.Bound w.classes m → (through given).2.Bound w.classes m)
  (same : ∀ given : Site, given.Bound w.classes m → (through given).1 = otherwise)
  (bound : p.Binds w.classes s.sites)
include hm kept same bound

/-- A use of a call site that does what the lookup does is the lookup, and the sites stay bound as they should be. -/
theorem atSite_eq : ∃ sites, p.Binds w.classes sites
    ∧ Exec.atSite site through otherwise s = Exec.act otherwise { s with sites := sites } := by
  subst hm
  unfold Exec.atSite
  split
  · rename_i given found
    have own := bound site given found
    refine ⟨s.sites.setIfInBounds site (through given).2, bound.set (kept given own), ?_⟩
    rw [← same given own]
  · exact ⟨s.sites, bound, rfl⟩

/-- What comes of it comes of the lookup. -/
theorem of_atSite_ok (used : Exec.atSite site through otherwise s = (.ok r, s')) :
    otherwise s.store = (.ok r, s'.store) ∧ p.Binds w.classes s'.sites ∧ s'.bindings = s.bindings := by
  obtain ⟨sites, bound', looked⟩ := atSite_eq hm kept same bound
  rw [looked] at used
  obtain ⟨computed, after⟩ := of_act_ok used
  rw [after]
  exact ⟨computed, bound', rfl⟩

/-- What comes of the lookup comes of it. -/
theorem atSite_of_ok {store : Store} (computed : otherwise s.store = (.ok r, store)) :
    ∃ s', Exec.atSite site through otherwise s = (.ok r, s') := by
  obtain ⟨sites, -, looked⟩ := atSite_eq hm kept same bound
  exact ⟨_, looked.trans (act_of_ok computed)⟩

end

/-- A use of a call site leaves the bindings as they are. -/
theorem bindings_atSite (site : Nat) (through : Site → Act α × Site) (otherwise : Act α) (s : Running) :
    (Exec.atSite site through otherwise s).2.bindings = s.bindings := by
  have left (a : Act α) (s : Running) : (Exec.act a s).2.bindings = s.bindings := by
    unfold Exec.act
    split <;> rfl
  unfold Exec.atSite
  split
  · exact left _ _
  · exact left _ _

end Exec

end HostExpr
