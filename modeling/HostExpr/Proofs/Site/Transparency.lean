import HostExpr.Proofs.Site.Property
import HostExpr.Proofs.Site.Run

/-!
# Property and index sites are transparent

Whatever a site has met before, and whatever the default strategy was then and is now, an access through it gives
the value or error of the lookup and leaves the store that the lookup leaves: `access_run_eq_direct`.
-/

namespace HostExpr

/-- What can be asked of a site of a member that is no method. -/
inductive Access : Member → Type
  | get {name : String} (receiver : Value) : Access (.property name)
  | set {name : String} (receiver value : Value) : Access (.property name)
  | getIndex (receiver index : Value) : Access .index
  | setIndex (receiver index value : Value) : Access .index

/-- A store answers with null. -/
def Act.answered (store : Act Unit) : Act Value := do
  store
  return .null

namespace Access

/-- The access by the lookup alone. -/
def lookup (w : World) {member : Member} : Access member → Act Value
  | get receiver => w.getProperty receiver member.name
  | set receiver value => (w.setProperty receiver member.name value).answered
  | getIndex receiver index => w.getIndex receiver index
  | setIndex receiver index value => (w.setIndex receiver index value).answered

/-- The access through a site, and the site as the access leaves it. -/
def through (w : World) {member : Member} (default : Strategy) (site : Site) :
    Access member → Act Value × Site
  | get receiver => site.get w default receiver
  | set receiver value =>
    let (store, site) := site.set w default receiver value
    (store.answered, site)
  | getIndex receiver index => site.getIndex w default receiver index
  | setIndex receiver index value =>
    let (store, site) := site.setIndex w default receiver index value
    (store.answered, site)

end Access

namespace Site

variable {w : World} {site : Site}

/-- Reading a property through a site is the lookup. -/
theorem Bound.get_eq {name : String} (h : site.Bound w.classes (.property name)) (default : Strategy)
    (r : Value) : (site.get w default r).1 = w.getProperty r name := by
  have hm : site.member.name = name := by rw [h.member_eq]; rfl
  unfold Site.get Site.access
  rw [hm]
  split
  · rfl
  · rfl
  · rename_i hn hc
    exact (h.resolve_builtFor default (.inr hc)).get_eq hn hc

/-- Writing a property through a site is the lookup. -/
theorem Bound.set_eq {name : String} (h : site.Bound w.classes (.property name)) (default : Strategy)
    (r v : Value) : (site.set w default r v).1 = w.setProperty r name v := by
  have hm : site.member.name = name := by rw [h.member_eq]; rfl
  unfold Site.set Site.access
  rw [hm]
  split
  · rfl
  · rfl
  · rename_i hn hc
    exact (h.resolve_builtFor default (.inr hc)).set_eq hn v

/-- Reading an item through a site is the lookup. -/
theorem Bound.getIndex_eq (h : site.Bound w.classes .index) (default : Strategy) (r index : Value) :
    (site.getIndex w default r index).1 = w.getIndex r index := by
  have hm : site.member.name = "[]" := by rw [h.member_eq]; rfl
  unfold Site.getIndex Site.accessIndex
  split
  · rw [hm]
    rfl
  · exact (h.resolve_builtFor default (.inl rfl)).getIndex_eq r index

/-- Writing an item through a site is the lookup. -/
theorem Bound.setIndex_eq (h : site.Bound w.classes .index) (default : Strategy) (r index v : Value) :
    (site.setIndex w default r index v).1 = w.setIndex r index v := by
  have hm : site.member.name = "[]" := by rw [h.member_eq]; rfl
  unfold Site.setIndex Site.accessIndex
  split
  · rw [hm]
    rfl
  · exact (h.resolve_builtFor default (.inl rfl)).setIndex_eq r index v

/-- An access through a site that is bound as it should be is the lookup. -/
theorem Bound.through_eq {member : Member} (h : site.Bound w.classes member) (default : Strategy)
    (a : Access member) : (a.through w default site).1 = a.lookup w := by
  cases a with
  | get r => exact h.get_eq default r
  | set r v => exact congrArg Act.answered (h.set_eq default r v)
  | getIndex r index => exact h.getIndex_eq default r index
  | setIndex r index v => exact congrArg Act.answered (h.setIndex_eq default r index v)

/-- An access keeps the site bound as it should be. -/
theorem Bound.through {member : Member} (h : site.Bound w.classes member) (default : Strategy)
    (a : Access member) : (a.through w default site).2.Bound w.classes member := by
  cases a with
  | get r => exact h.access default r _ _
  | set r v =>
    have kept : (site.set w default r v).2.Bound w.classes _ := h.access default r _ _
    exact kept
  | getIndex r index => exact h.accessIndex default r _
  | setIndex r index v =>
    have kept : (site.setIndex w default r index v).2.Bound w.classes _ := h.accessIndex default r _
    exact kept

/-- **Transparency.** Every access through a site gives what the lookup gives in the same store, and leaves the
same store, whatever was done through the site before and however the default strategy changes. -/
theorem access_run_eq_direct (w : World) (member : Member) (preferred : Option Strategy)
    (default : Strategy) (store : Store) (steps : List (Step (Access member))) :
    run (Access.through w) default (.fresh member preferred) store steps
      = Step.direct (Access.lookup w) store steps := by
  have fresh := Bound.fresh w.classes member preferred
  refine run_eq_direct ?_ steps ?_ fresh store
  · intro default site a h
    exact h.through default a
  · intro default site a _ h
    exact h.through_eq default a

end Site

end HostExpr
