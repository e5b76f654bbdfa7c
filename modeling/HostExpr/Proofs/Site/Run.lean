import HostExpr.Member.Site

/-!
# Runs of a call site

A call site lives through a sequence of steps: accesses through it, changes of the default strategy, and work of
the rest of the program on the store. What counts of a run is its answers: for each access the value or error,
and the store it leaves. `run_eq_direct` reduces the agreement of two runs to one access, given an invariant of
the site that every access keeps.
-/

namespace HostExpr

/-- A step in the life of a call site. -/
inductive Step (α : Type)
  | access (a : α)
  | setDefault (s : Strategy)
  /-- The rest of the program works on the store. -/
  | work (f : Store → Store)

/-- What an access gives, and the store it leaves. -/
abbrev Answer := Except RuntimeError Value × Store

/-- The answers of accesses that go straight to the lookup. -/
def Step.direct {α : Type} (lookup : α → Act Value) : Store → List (Step α) → List Answer
  | _, [] => []
  | store, .access a :: steps =>
    let answer : Answer := lookup a store
    answer :: direct lookup answer.2 steps
  | store, .setDefault _ :: steps => direct lookup store steps
  | store, .work f :: steps => direct lookup (f store) steps

namespace Site

variable {α : Type} (through : Strategy → Site → α → Act Value × Site)

/-- The answers of accesses through a site. The strategy is the default that is in force. -/
def run : Strategy → Site → Store → List (Step α) → List Answer
  | _, _, _, [] => []
  | default, site, store, .access a :: steps =>
    let (act, kept) := through default site a
    let answer : Answer := act store
    answer :: run default kept answer.2 steps
  | _, site, store, .setDefault s :: steps => run s site store steps
  | default, site, store, .work f :: steps => run default site (f store) steps

/-- The default strategy and the site after some steps. -/
def after : Strategy → Site → List (Step α) → Strategy × Site
  | default, site, [] => (default, site)
  | default, site, .access a :: steps => after default (through default site a).2 steps
  | _, site, .setDefault s :: steps => after s site steps
  | default, site, .work _ :: steps => after default site steps

variable {through}

/-- What every access keeps of a site holds of it after any steps. -/
theorem after_invariant {I : Site → Prop}
    (keeps : ∀ default site a, I site → I (through default site a).2)
    (steps : List (Step α)) {default : Strategy} {site : Site} (h : I site) :
    I (after through default site steps).2 := by
  induction steps generalizing default site with
  | nil => exact h
  | cons step steps ih =>
    cases step with
    | access a => exact ih (keeps default site a h)
    | setDefault s => exact ih h
    | work f => exact ih h

/-- If every access through a site is the lookup as long as the invariant holds, then so are all the answers of
a run. -/
theorem run_eq_direct {I : Site → Prop} {lookup : α → Act Value}
    (keeps : ∀ default site a, I site → I (through default site a).2)
    (steps : List (Step α))
    (agrees : ∀ default site a, .access a ∈ steps → I site → (through default site a).1 = lookup a)
    {default : Strategy} {site : Site} (h : I site) (store : Store) :
    run through default site store steps = Step.direct lookup store steps := by
  induction steps generalizing default site store with
  | nil => rfl
  | cons step steps ih =>
    have agrees' : ∀ default site a, .access a ∈ steps → I site → (through default site a).1 = lookup a :=
      fun default site a ha => agrees default site a (List.mem_cons_of_mem _ ha)
    cases step with
    | access a =>
      have head := agrees default site a List.mem_cons_self h
      simp only [run, Step.direct, head, ih agrees' (keeps default site a h)]
    | setDefault s => exact ih agrees' h store
    | work f => exact ih agrees' h (f store)

end Site

/-!
## What a call site is bound to

A site that is bound has settled on a strategy, and it holds the accessor that this strategy builds for a receiver
of the class it is bound to. `Bound.resolve` says that finding an accessor keeps this, and that the accessor
found was built for a receiver of the class at hand.
-/

/-- Whether a site of a member looks for an accessor at all when it meets a receiver other than null: the members
of class values are static, unless they are items. -/
def Member.Resolves (member : Member) (receiver : Value) : Prop :=
  member = .index ∨ ∀ c, receiver ≠ .cls c

/-- An accessor that a strategy builds for some receiver of a class. -/
def Accessor.BuiltFor (cs : Classes) (s : Strategy) (c : ClassRef) (member : Member) (a : Accessor) : Prop :=
  ∃ receiver : Value, receiver.classRef = c ∧ member.Resolves receiver ∧ a = .build cs s receiver member

namespace Site

/-- The accessor that a site keeps was built by the strategy it settled on, for the class it is kept with. -/
structure Bound (cs : Classes) (member : Member) (site : Site) : Prop where
  member_eq : site.member = member
  builtFor : ∀ c a, site.binding = some (c, a) →
    ∃ s, site.settled = some s ∧ Accessor.BuiltFor cs s c member a

/-- The strategy that a site settles on if it has not yet done so. -/
def strategyUnder (site : Site) (default : Strategy) : Strategy :=
  site.settled.getD (site.preferred.getD default)

/-- A fresh site is bound to nothing. -/
theorem Bound.fresh (cs : Classes) (member : Member) (preferred : Option Strategy) :
    (Site.fresh member preferred).Bound cs member where
  member_eq := rfl
  builtFor := by
    intro c a h
    simp [Site.fresh] at h

/-- The accessor found for a receiver is built by the site's strategy for a receiver of the same class. -/
theorem Bound.resolve_builtFor {cs : Classes} {member : Member} {site : Site} (h : site.Bound cs member)
    (default : Strategy) {receiver : Value} (hr : member.Resolves receiver) :
    Accessor.BuiltFor cs (site.strategyUnder default) receiver.classRef member
      (site.resolve cs default receiver).1 := by
  have built : Accessor.BuiltFor cs (site.strategyUnder default) receiver.classRef member
      (.build cs (site.strategyUnder default) receiver site.member) :=
    ⟨receiver, rfl, hr, by rw [h.member_eq]⟩
  unfold resolve
  split
  · rename_i c a hb
    obtain ⟨s, hs, ha⟩ := h.builtFor c a hb
    split
    · -- a hit keeps the accessor that was built for this class before
      rename_i hc
      have : site.strategyUnder default = s := by simp [strategyUnder, hs]
      rw [this, ← hc]
      exact ha
    · exact built
  · exact built

/-- Finding an accessor keeps the site bound as it should be. -/
theorem Bound.resolve {cs : Classes} {member : Member} {site : Site} (h : site.Bound cs member)
    (default : Strategy) {receiver : Value} (hr : member.Resolves receiver) :
    (site.resolve cs default receiver).2.Bound cs member := by
  have miss : Bound cs member
      { site with
        settled := some (site.strategyUnder default)
        binding := some (receiver.classRef, .build cs (site.strategyUnder default) receiver site.member) } := by
    refine ⟨h.member_eq, ?_⟩
    intro c a hb
    cases hb
    exact ⟨_, rfl, receiver, rfl, hr, by rw [h.member_eq]⟩
  unfold Site.resolve
  split
  · split
    · exact h
    · exact miss
  · exact miss

/-- An access keeps the site bound as it should be. -/
theorem Bound.access {cs : Classes} {member : Member} {site : Site} (h : site.Bound cs member)
    (default : Strategy) (receiver : Value) {α : Type} (static : Act α) (through : Accessor → Act α) :
    (site.access cs default receiver static through).2.Bound cs member := by
  unfold Site.access
  split
  · exact h
  · exact h
  · rename_i hc
    exact h.resolve default (.inr hc)

/-- An access to an item keeps the site bound as it should be. -/
theorem Bound.accessIndex {cs : Classes} {site : Site} (h : site.Bound cs .index) (default : Strategy)
    (receiver : Value) {α : Type} (through : Accessor → Act α) :
    (site.accessIndex cs default receiver through).2.Bound cs .index := by
  unfold Site.accessIndex
  split
  · exact h
  · exact h.resolve default (.inl rfl)

end Site

end HostExpr
