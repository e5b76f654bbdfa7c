import HostExpr.Proofs.Engine.Calls
import HostExpr.Proofs.Site.Method
import HostExpr.Proofs.Site.Transparency

/-!
# The strategy of a site is pinned

A site settles on a strategy when it first looks for an accessor: the one it is told to use, or else the default that
is in force then. From then on neither the default nor what the site meets makes a difference to it. What the site is
bound to is the class of the last receiver that it had no accessor for, with the accessor that its strategy builds for
that class: `pinned_after`.
-/

namespace HostExpr

/-- The value is a class. -/
def Value.isCls : Value → Bool
  | cls _ => true
  | _ => false

/-! ## Requests -/

/-- What can be asked of a site, whatever its member is. -/
inductive Request
  | get (receiver : Value)
  | set (receiver value : Value)
  | call (receiver : Value) (args : List Value)
  | getIndex (receiver index : Value)
  | setIndex (receiver index value : Value)

namespace Request

/-- The value that is asked. -/
def receiver : Request → Value
  | get r | set r _ | call r _ | getIndex r _ | setIndex r _ _ => r

/-- Whether the site looks for an accessor: null has no members, and those of a class are static, unless it is asked
for its items. -/
def resolves : Request → Bool
  | get r | set r _ | call r _ => !r.isNull && !r.isCls
  | getIndex r _ | setIndex r _ _ => !r.isNull

/-- The access through a site, and the site as the access leaves it. -/
def through (w : World) (default : Strategy) (site : Site) : Request → Act Value × Site
  | get r => site.get w default r
  | set r v =>
    let (store, site) := site.set w default r v
    (store.answered, site)
  | call r args => site.call w default r args
  | getIndex r index => site.getIndex w default r index
  | setIndex r index v =>
    let (store, site) := site.setIndex w default r index v
    (store.answered, site)

end Request

namespace Step

/-- The default that is in force at the first access for which an accessor is looked for. -/
def firstDefault? : Strategy → List (Step Request) → Option Strategy
  | _, [] => none
  | default, access a :: steps => if a.resolves then some default else firstDefault? default steps
  | _, setDefault s :: steps => firstDefault? s steps
  | default, work _ :: steps => firstDefault? default steps

/-- The last receiver that missed: its class is not that of the one that missed before it. -/
def lastMissed? : Option Value → List (Step Request) → Option Value
  | last, [] => last
  | last, access a :: steps =>
    if a.resolves && last.map Value.classRef ≠ some a.receiver.classRef then lastMissed? (some a.receiver) steps
    else lastMissed? last steps
  | last, setDefault _ :: steps => lastMissed? last steps
  | last, work _ :: steps => lastMissed? last steps

end Step

/-! ## What is built for a class -/

/-- The only property of a built-in class has the same type for all receivers. -/
theorem Classes.resolve_property?_builtin {cs : Classes} {b : Builtin} {name : String} {p : Property}
    (h : cs.property? (.builtin b) name = some p) (t t' : Ty) : cs.resolve t p.type = cs.resolve t' p.type := by
  cases b <;>
    simp [property?, ancestry, lineage, Builtin.lineage, get, Builtin.toDef] at h
  obtain ⟨-, rfl⟩ := h
  rfl

namespace Value

/-- A value that is no class. -/
theorem ne_cls_of_isCls {v : Value} (h : v.isCls = false) (c : ClassRef) : v ≠ .cls c := by
  rintro rfl
  cases h

end Value

namespace Accessor

variable {cs : Classes} {r u : Value}

/-- The accessor to a property is that of the class: arrays show more than their class, but their property does not ask
for it. -/
theorem specializeProperty?_eq (hc : u.classRef = r.classRef) (hu : u.isCls = false) (hr : r.isCls = false)
    (name : String) : specializeProperty? cs u name = specializeProperty? cs r name := by
  unfold specializeProperty?
  rw [hc]
  by_cases array : r.classRef = .builtin .array
  · rw [array]
    cases found : cs.property? (.builtin .array) name with
    | none => rfl
    | some p => simp only [Classes.resolve_property?_builtin found u.runtimeType r.runtimeType]
  · have raw : u.runtimeType = r.runtimeType := by
      rw [Value.runtimeType_eq_raw array (Value.ne_cls_of_isCls hr),
        Value.runtimeType_eq_raw (hc ▸ array) (Value.ne_cls_of_isCls hu), hc]
    rw [raw]

/-- A class value has no accessor of its own. -/
theorem specialize?_of_isCls (h : r.isCls) (member : Member) : specialize? cs r member = none := by
  cases r with
  | cls c => rfl
  | _ => cases h

/-- A value that is no class has the accessor to the member. -/
theorem specialize?_of_not_isCls (h : r.isCls = false) (member : Member) : specialize? cs r member =
    match member with
    | .property name => specializeProperty? cs r name
    | .method name arity => specializeMethod? cs r name arity
    | .index => specializeIndex? r.classRef := by
  cases r with
  | cls c => cases h
  | _ => rfl

/-- What a strategy builds is the same for all receivers of a class. -/
theorem build_eq_of_classRef_eq (hc : u.classRef = r.classRef) (same : u.isCls = r.isCls) (s : Strategy)
    (member : Member) : build cs s u member = build cs s r member := by
  cases s with
  | universal => rfl
  | specialized =>
    have specialized : specialize? cs u member = specialize? cs r member := by
      cases hr : r.isCls with
      | true => rw [specialize?_of_isCls hr, specialize?_of_isCls (same.trans hr)]
      | false =>
        have hu : u.isCls = false := same.trans hr
        rw [specialize?_of_not_isCls hr, specialize?_of_not_isCls hu]
        cases member with
        | property name => exact specializeProperty?_eq hc hu hr name
        | method name arity => exact specializeMethod?_eq hc (Value.ne_cls_of_isCls hr) (Value.ne_cls_of_isCls hu)
        | index => exact congrArg specializeIndex? hc
    unfold build
    rw [specialized]

end Accessor

namespace Site

variable {w : World}

/-! ## One access -/

/-- What an access does to a site is to find an accessor, if it looks for one. -/
theorem through_snd (default : Strategy) (site : Site) (a : Request) :
    (a.through w default site).2
      = if a.resolves then (site.resolve w.classes default a.receiver).2 else site := by
  cases a with
  | get r | set r _ | call r _ => cases r <;> rfl
  | getIndex r _ | setIndex r _ _ => cases r <;> rfl

/-- A site of a member that has settled on a strategy and was last missed by a receiver. -/
def pinnedTo (cs : Classes) (member : Member) (preferred : Option Strategy) (s : Strategy) (last : Value) : Site :=
  ⟨member, preferred, some s, some (last.classRef, .build cs s last member)⟩

variable {cs : Classes} {member : Member} {preferred : Option Strategy}

/-- A fresh site settles on the strategy it is told, or else the default. -/
theorem resolve_fresh (default : Strategy) (r : Value) :
    ((fresh member preferred).resolve cs default r).2 = pinnedTo cs member preferred (preferred.getD default) r := rfl

/-- A site that has settled keeps its strategy, and its accessor where the class is the same. -/
theorem resolve_pinnedTo (s default : Strategy) (last r : Value) :
    ((pinnedTo cs member preferred s last).resolve cs default r).2
      = pinnedTo cs member preferred s (if last.classRef = r.classRef then last else r) := by
  unfold resolve
  dsimp only [pinnedTo]
  by_cases hit : last.classRef = r.classRef
  · rw [if_pos hit, if_pos hit]
  · rw [if_neg hit, if_neg hit]
    rfl

/-! ## Runs -/

/-- After it has settled, only the last receiver that missed makes a difference to a site. -/
theorem after_pinnedTo (w : World) (member : Member) (preferred : Option Strategy) (s : Strategy) (last : Value)
    (steps : List (Step Request)) (default : Strategy) :
    ∃ missed, Step.lastMissed? (some last) steps = some missed
      ∧ (after (Request.through w) default (pinnedTo w.classes member preferred s last) steps).2
        = pinnedTo w.classes member preferred s missed := by
  induction steps generalizing default last with
  | nil => exact ⟨last, rfl, rfl⟩
  | cons step steps ih =>
    cases step with
    | access a =>
      unfold after Step.lastMissed?
      rw [through_snd]
      cases a.resolves with
      | false => exact ih last default
      | true =>
        rw [if_pos rfl, resolve_pinnedTo]
        -- a receiver of the class that the site is bound to hits; another one rebinds it, under the same strategy
        by_cases hit : last.classRef = a.receiver.classRef
        · rw [if_pos hit, if_neg (by simp [hit])]
          exact ih last default
        · rw [if_neg hit, if_pos (by simp [hit])]
          exact ih a.receiver default
    | setDefault s' => exact ih last s'
    | work f => exact ih last default

/-- A site that has looked for no accessor is fresh; otherwise it is pinned to the strategy that it was told, or else
to the default that was in force when it first did. -/
theorem after_fresh (w : World) (member : Member) (preferred : Option Strategy) (steps : List (Step Request))
    (default : Strategy) :
    (Step.firstDefault? default steps = none ∧ Step.lastMissed? none steps = none
        ∧ (after (Request.through w) default (fresh member preferred) steps).2 = fresh member preferred)
      ∨ ∃ first missed, Step.firstDefault? default steps = some first ∧ Step.lastMissed? none steps = some missed
        ∧ (after (Request.through w) default (fresh member preferred) steps).2
          = pinnedTo w.classes member preferred (preferred.getD first) missed := by
  induction steps generalizing default with
  | nil => exact .inl ⟨rfl, rfl, rfl⟩
  | cons step steps ih =>
    cases step with
    | access a =>
      unfold after Step.firstDefault? Step.lastMissed?
      rw [through_snd]
      cases a.resolves with
      | false => exact ih default
      | true =>
        rw [if_pos rfl, resolve_fresh]
        obtain ⟨missed, last, pinned⟩ :=
          after_pinnedTo w member preferred (preferred.getD default) a.receiver steps default
        exact .inr ⟨default, missed, rfl, last, pinned⟩
    | setDefault s => exact ih s
    | work f => exact ih default

/-- After one sequence of steps and another. -/
theorem after_append {α : Type} (through : Strategy → Site → α → Act Value × Site) (steps more : List (Step α))
    (default : Strategy) (site : Site) :
    after through default site (steps ++ more)
      = after through (after through default site steps).1 (after through default site steps).2 more := by
  induction steps generalizing default site with
  | nil => rfl
  | cons step steps ih => cases step <;> exact ih _ _

/-- **A site's strategy is pinned when it first looks for an accessor.** Whatever is asked of a site, of any receivers
and with or without success, and however the default changes in between, the site has no strategy before it first looks
for an accessor; then it has the one it was told to use, or else the default in force at that access, and keeps it. It
is bound to the class of the last receiver that missed, with the accessor that its strategy builds for it: the one that
is built for any receiver of the class, where classes are told from instances of their class. -/
theorem pinned_after (w : World) (member : Member) (preferred : Option Strategy) (default : Strategy)
    (steps : List (Step Request)) :
    let site := (after (Request.through w) default (.fresh member preferred) steps).2
    site.settled = (Step.firstDefault? default steps).map preferred.getD
    ∧ (∀ s, site.settled = some s → ∀ more,
        (after (Request.through w) default (.fresh member preferred) (steps ++ more)).2.settled = some s)
    ∧ (site.binding = site.settled.bind fun s =>
        (Step.lastMissed? none steps).map fun r => (r.classRef, .build w.classes s r member))
    ∧ ∀ s r u, Step.lastMissed? none steps = some r → u.classRef = r.classRef → u.isCls = r.isCls →
        Accessor.build w.classes s u member = .build w.classes s r member := by
  intro site
  -- either no access looked for an accessor yet, or the first one that did has settled the site
  obtain ⟨unsettled, unmissed, still⟩ | ⟨first, missed, found, last, pinned⟩ :=
    after_fresh w member preferred steps default
  · have blank : site = fresh member preferred := still
    refine ⟨?_, ?_, ?_, fun s r u _ hc same => Accessor.build_eq_of_classRef_eq hc same s member⟩
    · rw [blank, unsettled]
      rfl
    · intro s settled
      rw [blank] at settled
      cases settled
    · rw [blank]
      rfl
  · have kept : site = pinnedTo w.classes member preferred (preferred.getD first) missed := pinned
    refine ⟨?_, ?_, ?_, fun s r u _ hc same => Accessor.build_eq_of_classRef_eq hc same s member⟩
    · rw [kept, found]
      rfl
    · intro s settled more
      rw [kept] at settled
      cases settled
      rw [after_append, pinned]
      obtain ⟨later, -, pinned⟩ := after_pinnedTo w member preferred (preferred.getD first) missed more _
      rw [pinned]
      rfl
    · rw [kept, last]
      rfl

/-- Null and a class settle nothing. A point does, under the default that was set before it; a box, which has no such
field, is bound under the same strategy. -/
theorem pinned_after_pointThenBox :
    let point : Value := .object 0 (.host 0)
    let box : Value := .object 1 (.host 1)
    let steps : List (Step Request) := [.access (.get .null), .access (.get (.cls (.host 0))), .setDefault .specialized,
      .access (.get point), .setDefault .universal, .access (.set box .null)]
    let site := (after (Request.through pointHost) .universal (.fresh (.property "x") none) steps).2
    site.settled = some .specialized ∧ site.binding = some (.host 1, .universal)
      ∧ (after (Request.through pointHost) .universal (.fresh (.property "x") none)
          (steps ++ [.access (.get point)])).2.settled = some .specialized
      ∧ Accessor.build pointHost.classes .specialized (.object 2 (.host 1)) (.property "x")
        = .build pointHost.classes .specialized box (.property "x") := by
  intro point box steps site
  obtain ⟨settled, kept, bound, same⟩ := pinned_after pointHost (.property "x") none .universal steps
  have first : site.settled = some .specialized := settled.trans rfl
  refine ⟨first, ?_, kept _ first _, same _ box _ rfl rfl rfl⟩
  rw [show site.binding = _ from bound, first]
  rfl

end Site

end HostExpr
