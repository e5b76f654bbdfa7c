import HostExpr.Proofs.Call.Value
import HostExpr.Proofs.Soundness.Intrinsic
import HostExpr.Proofs.Soundness.Reads

/-!
# Members give what they declare

Members of the built-in classes give what they declare, and those of host classes if the host keeps its promises. An
access looks the member up in the class at hand, so what it gives suits the type that is declared there; a call site that
is bound as it should be changes nothing about that.
-/

namespace HostExpr

open Typed Classes

/-- A member of a kind comes from the class or from a superclass. -/
theorem Classes.exists_of_mem_ancestry {cs : Classes} {c : ClassRef} {α : Type} {kind : ClassDef → List α} {a : α}
    (h : a ∈ (cs.ancestry c).flatMap kind) : ∃ d ∈ cs.lineage c, a ∈ kind (cs.get d) := by
  obtain ⟨_, above, ha⟩ := List.mem_flatMap.1 h
  obtain ⟨d, hd, rfl⟩ := List.mem_map.1 above
  exact ⟨d, hd, ha⟩

/-! ## Members that are looked up -/

namespace World

variable {w : World} (h : w.KeepsTypes) (receiver : Value) {name : String} (args : List Value) (store : Store) {t : Ty}
include h

theorem suits_method {m : Method} (hm : m ∈ w.classes.methods receiver.classRef name) :
    Gives (w.invoke m.code receiver args) store fun v _ =>
      w.classes.suits v (w.classes.resolve receiver.runtimeType m.result) := by
  obtain ⟨d, above, hm⟩ := exists_of_mem_ancestry (List.mem_filter.1 (mem_of_mem_visibleMethods hm)).1
  cases d with
  | host n => exact h.bodies _ _ _ (.method above hm) args store
  | builtin b => exact suits_covered args store (b.covered_of_mem_methods m hm) receiver

theorem suits_staticMethod {c : ClassRef} {m : Method} (hm : m ∈ w.classes.staticMethods c name) :
    Gives (w.invoke m.code (.cls c) args) store fun v _ =>
      w.classes.suits v (w.classes.resolve (.raw c) m.result) := by
  obtain ⟨d, above, hm⟩ := exists_of_mem_ancestry (List.mem_filter.1 (mem_of_mem_visibleMethods hm)).1
  cases d with
  | host n => exact h.bodies _ _ _ (.staticMethod above hm) args store
  | builtin b =>
    obtain ⟨covered, static⟩ := b.covered_of_mem_staticMethods m hm
    exact suits_static args store covered static _ _

theorem suits_getter {p : Property} {get : Code} {set : Option Code}
    (hp : w.classes.property? receiver.classRef name = some p) (hk : p.kind = .computed (some get) set) :
    Gives (w.invoke get receiver args) store fun v _ =>
      w.classes.suits v (w.classes.resolve receiver.runtimeType p.type) := by
  obtain ⟨d, above, hp⟩ := exists_of_mem_ancestry (List.mem_of_find?_eq_some hp)
  cases d with
  | host n => exact h.bodies _ _ _ (.getter above hp hk) args store
  | builtin b => exact suits_covered args store (Builtin.covered_of_mem_properties hp hk) receiver

/-- A method that stands for reading a property gives what it declares. -/
theorem suits_getterMethod {m : Method} (hm : w.classes.getterMethod? receiver.classRef name = some m) :
    Gives (w.invoke m.code receiver []) store fun v _ =>
      w.classes.suits v (w.classes.resolve receiver.runtimeType m.result) := by
  obtain ⟨capital, -, found⟩ := Option.bind_eq_some_iff.1 hm
  rcases Option.or_eq_some_iff.1 found with getter | ⟨-, getter⟩
  · exact suits_method h receiver [] store (of_methodOfArity? getter).1
  · exact suits_method h receiver [] store (of_methodOfArity? getter).1

/-- A member that is read through code gives what the class at hand declares. -/
theorem suits_getMember (declared : w.memberType? receiver name = some t) :
    Gives (w.getMember receiver name) store fun v _ => w.classes.suits v t := by
  unfold memberType? at declared
  unfold getMember
  cases hp : w.classes.property? receiver.classRef name with
  | some p =>
    rw [hp] at declared
    dsimp only at declared ⊢
    cases hk : p.kind with
    -- nothing is said of what a slot holds
    | slot i =>
      rw [hk] at declared
      cases declared
    | computed get set =>
      rw [hk] at declared
      cases declared
      cases get with
      | none => exact .throw _
      | some get => exact suits_getter h receiver [] store hp hk
  | none =>
    rw [hp] at declared
    obtain ⟨m, hm, rfl⟩ := Option.map_eq_some_iff.1 declared
    dsimp only
    rw [hm]
    exact suits_getterMethod h receiver store hm

/-- A property gives what the class at hand declares. -/
theorem suits_getProperty (declared : w.propertyType? receiver name = some t) :
    Gives (w.getProperty receiver name) store fun v _ => w.classes.suits v t := by
  have member (declared : w.memberType? receiver name = some t) :
      Gives (w.getMember receiver name) store fun v _ => w.classes.suits v t := suits_getMember h receiver store declared
  cases receiver with
  | null => exact .throw _
  | map handle => cases declared
  | cls c =>
    unfold getProperty
    dsimp only [propertyType?] at declared ⊢
    cases hf : w.classes.staticField? c name with
    | some field =>
      rw [hf] at declared
      cases declared
      exact .pure (h.fields c name field hf)
    | none =>
      rw [hf] at declared
      exact member declared
  | _ => exact member declared

omit h in
/-- What fits the arguments among candidates gives what it declares. -/
theorem suits_callOverloaded {candidates : List Method} {owner : Ty}
    (each : ∀ m ∈ candidates, ∀ args store, Gives (w.invoke m.code receiver args) store fun v _ =>
      w.classes.suits v (w.classes.resolve owner m.result))
    (declared : w.candidateType? candidates owner args = some t) :
    Gives (w.callOverloaded candidates owner receiver name args) store fun v _ => w.classes.suits v t := by
  obtain ⟨⟨m, params⟩, selected, rfl⟩ := Option.map_eq_some_iff.1 declared
  unfold callOverloaded
  rw [selected]
  exact .bind fun args store _ => each m (of_select? selected).1 args store

theorem suits_callMember
    (declared : w.candidateType? (w.classes.methods receiver.classRef name) receiver.runtimeType args = some t) :
    Gives (w.callMember receiver name args) store fun v _ => w.classes.suits v t := by
  unfold callMember
  split
  · exact .throw _
  · exact suits_callOverloaded receiver args store (fun m hm args store => suits_method h receiver args store hm)
      declared

/-- A call gives what the class at hand declares. -/
theorem suits_callMethod (declared : w.resultType? receiver name args = some t) :
    Gives (w.callMethod receiver name args) store fun v _ => w.classes.suits v t := by
  have member (declared : w.candidateType? (w.classes.methods receiver.classRef name) receiver.runtimeType args = some t) :
      Gives (w.callMember receiver name args) store fun v _ => w.classes.suits v t :=
    suits_callMember h receiver args store declared
  cases receiver with
  | null => exact .throw _
  | cls c =>
    unfold callMethod
    dsimp only [resultType?] at declared ⊢
    cases hs : w.classes.staticMethods c name with
    | nil =>
      rw [hs] at declared
      exact member declared
    | cons first rest =>
      rw [hs] at declared
      refine suits_callOverloaded (.cls c) args store (fun m hm args store => ?_) declared
      exact suits_staticMethod h args store (hs ▸ hm)
  | _ => exact member declared

end World

/-! ## Members that are reached through a call site -/

section

variable {w : World} (h : w.KeepsTypes) {receiver : Value} {args : List Value} {name : String} {site : Site} (store : Store)
  {t : Ty}
include h

/-- The method that a specialized accessor runs at once is the one that the lookup selects. -/
theorem Call.suits_fastPath {arity : Nat} {a : Call arity} {m : Method} {params : List Ty}
    (fast : a.fastPath? w name = some (m, params))
    (declared : w.candidateType? (w.classes.methods a.receiver.classRef name) a.receiver.runtimeType a.args = some t) :
    Gives (w.invoke m.code a.receiver a.args) store fun v _ => w.classes.suits v t := by
  obtain ⟨-, -, only, -, -⟩ := of_fastPath? fast
  have hm : m ∈ w.classes.methods a.receiver.classRef name :=
    (List.mem_filter.1 (only ▸ List.mem_singleton_self m)).1
  unfold World.candidateType? at declared
  rw [select?_of_fastPath? fast] at declared
  cases declared
  exact World.suits_method h a.receiver a.args store hm

namespace Site.Bound

theorem suits_get (bound : site.Bound w.classes (.property name)) (default : Strategy)
    (declared : w.propertyType? receiver name = some t) :
    Gives (site.get w default receiver).1 store fun v _ => w.classes.suits v t := by
  rw [bound.get_eq default receiver]
  exact World.suits_getProperty h receiver store declared

theorem suits_call (bound : site.Bound w.classes (.method name args.length)) (default : Strategy)
    (declared : w.resultType? receiver name args = some t) :
    Gives (site.call w default receiver args).1 store fun v _ => w.classes.suits v t := by
  have looked : Gives (w.callMethod receiver name args) store fun v _ => w.classes.suits v t :=
    World.suits_callMethod h receiver args store declared
  have named : site.member.name = name := by
    rw [bound.member_eq]
    rfl
  by_cases hn : receiver = .null
  · rw [hn]
    exact .throw _
  by_cases hc : ∃ c, receiver = .cls c
  · -- static members are looked up without the site
    obtain ⟨c, rfl⟩ := hc
    rw [← named] at looked
    exact looked
  have hc (c : ClassRef) : receiver ≠ .cls c := fun same => hc ⟨c, same⟩
  let a : Call args.length := ⟨receiver, args, rfl⟩
  -- a bound site calls by the accessor that is built for the receiver
  have reached : (site.call w default receiver args).1
      = (Accessor.build w.classes (site.strategyUnder default) receiver (.method name args.length)).call w name receiver
          args := bound.call_eq default hn hc (a := a)
  rw [reached]
  cases site.strategyUnder default with
  | universal => exact looked
  | specialized =>
    rw [Call.call_build_specialized (a := a) hn]
    cases fast : a.fastPath? w name with
    | none => exact looked
    -- what the fast path calls declares the type that the look-up would give
    | some chosen =>
      refine Call.suits_fastPath h store fast ?_
      rw [← declared]
      unfold World.resultType?
      dsimp only
      split
      · exact absurd rfl (hc _)
      · rfl

end Site.Bound

end

/-- What a step gives passes the check. -/
theorem Exec.check_of_after {α : Type} {x : Exec α} {check : α → Running → Bool} {s s' : Running} {a : α}
    (h : Exec.after x check s) (hx : x s = (.ok a, s')) : check a s' := by
  unfold Exec.after at h
  rw [hx] at h
  exact h

/-- A use of a call site gives what is given through any site that is bound as it should be. -/
theorem Exec.gives_atSite {α : Type} {p : Program} {cs : Classes} {s : Running} (binds : p.Binds cs s.sites) {site : Nat}
    {m : Member} (hm : p.memberAt site = m) {through : Site → Act α × Site} {otherwise : Act α} {Q : α → Prop}
    (sited : ∀ given : Site, given.Bound cs m → Gives (through given).1 s.store fun a _ => Q a)
    (looked : Gives otherwise s.store fun a _ => Q a) : Gives (Exec.atSite site through otherwise) s fun a _ => Q a := by
  intro a s' ha
  unfold atSite at ha
  split at ha
  · rename_i given found
    have bound := binds site given found
    rw [hm] at bound
    have acted : Gives (Exec.act (through given).1) { s with sites := s.sites.setIfInBounds site (through given).2 }
        fun a _ => Q a := .act (sited given bound)
    exact acted a s' ha
  · have acted : Gives (Exec.act otherwise) s fun a _ => Q a := .act looked
    exact acted a s' ha

namespace Setting

variable {σ : Setting} (h : σ.world.KeepsTypes) {p : Program} {s : Running} (binds : p.Binds σ.world.classes s.sites)
  {name : String} {site : Nat} {t : Ty} {v : Value}
include h binds

/-- A property that is declared or read as it is recorded is read so. -/
theorem suits_getProperty (hm : p.memberAt site = .property name) (given : σ.givesProperty t v name site s) :
    Gives (σ.getProperty v name site) s fun r _ => σ.world.classes.suits r t := by
  rcases Bool.or_eq_true_iff.1 given with declared | read
  · obtain ⟨u, hu, wider⟩ := (Option.any_eq_true ..).1 declared
    refine (Exec.gives_atSite binds hm (fun given bound => ?_) ?_).weaken fun r _ suits =>
      suits_of_widens h.nullAlone suits wider
    · exact bound.suits_get h s.store σ.strategy hu
    · exact World.suits_getProperty h v s.store hu
  · exact fun r s' hr => Exec.check_of_after read hr

/-- The same of the result of a call. -/
theorem suits_callMethod {args : List Value} (hm : p.memberAt site = .method name args.length)
    (given : σ.givesResult t v name args site s) :
    Gives (σ.callMethod v name args site) s fun r _ => σ.world.classes.suits r t := by
  rcases Bool.or_eq_true_iff.1 given with declared | read
  · obtain ⟨u, hu, wider⟩ := (Option.any_eq_true ..).1 declared
    refine (Exec.gives_atSite binds hm (fun given bound => ?_) ?_).weaken fun r _ suits =>
      suits_of_widens h.nullAlone suits wider
    · exact bound.suits_call h s.store σ.strategy hu
    · exact World.suits_callMethod h v args s.store hu
  · exact fun r s' hr => Exec.check_of_after read hr

end Setting

end HostExpr
