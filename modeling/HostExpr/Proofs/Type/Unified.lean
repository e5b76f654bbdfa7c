import HostExpr.Proofs.Scope.Resolution
import HostExpr.Proofs.Type.Order
import HostExpr.Typing.Program

/-!
# Common types and the order of what they are taken of

Two types stand to each other in one of four ways. One is above the other, which is then the common type of both
whichever comes first; they are unrelated, and `Object` is; they are tied, and the first one is; or they clash in their
arguments, and the common type is their class without any. Among types of which none are tied and none clash the common
type does not depend on the order if what is above is transitive, and if nothing but `Object` is above two unrelated
ones: `orderFree_iff_chains` says that exactly these conditions do. The common type is then the least one that all are
below of, in whatever order they are taken up.
-/

namespace HostExpr

/-! ## Ranks -/

namespace Ty

variable {a b : Ty}

theorem isNumeric_eq_isSome_rank? (t : Ty) : t.isNumeric = t.rank?.isSome := by
  unfold isNumeric ClassRef.isNumeric rank?
  split <;> simp_all

theorem cls_eq_of_rank? {m : Nat} (ha : a.rank? = some m) (hb : b.rank? = some m) : a.cls = b.cls := by
  unfold rank? at ha hb
  split at ha <;> split at hb <;> simp_all <;> omega

theorem isNull_of_rank? {m : Nat} (h : a.rank? = some m) : a.isNull = false := by
  unfold isNull
  unfold rank? at h
  split at h <;> simp_all

theorem promote?_of_rank? {m n : Nat} (ha : a.rank? = some m) (hb : b.rank? = some n) :
    a.promote? b = some (if n ≤ m then a else b) := by
  unfold promote?
  rw [ha, hb]

/-- Only numbers are promoted. -/
theorem promote?_eq_none (h : ¬ (a.isNumeric ∧ b.isNumeric)) : a.promote? b = none := by
  rw [isNumeric_eq_isSome_rank?, isNumeric_eq_isSome_rank?] at h
  unfold promote?
  split
  · rename_i ha hb
    rw [ha, hb] at h
    exact absurd ⟨rfl, rfl⟩ h
  · rfl

theorem isNull_congr (same : a.cls = b.cls) : a.isNull = b.isNull := by
  unfold isNull
  rw [same]

theorem isNumeric_congr (same : a.cls = b.cls) : a.isNumeric = b.isNumeric := by
  unfold isNumeric
  rw [same]

theorem eq_of_cls_of_args (hc : a.cls = b.cls) (ha : a.args = b.args) : a = b := by
  cases a
  cases b
  cases hc
  cases ha
  rfl

theorem raw_cls (h : a.args = []) : raw a.cls = a := eq_of_cls_of_args rfl h.symm

end Ty

namespace Classes

variable {cs : Classes} {a b c : Ty}

/-! ## Superclasses -/

/-- Superclasses among the host's classes were defined before. -/
theorem le_of_mem_hostLineage {fuel m n : Nat} (h : .host m ∈ cs.hostLineage fuel n) : m ≤ n := by
  induction fuel generalizing n with
  | zero => cases h
  | succ fuel ih =>
    rcases List.mem_cons.1 h with same | above
    · cases same
      exact Nat.le_refl _
    · split at above
      · rename_i b _
        cases b <;> simp [Builtin.lineage] at above
      · split at above
        · rename_i k _ hk
          have : m ≤ k := ih above
          omega
        · cases above
      · cases above

/-- Two classes are not superclasses of each other. -/
theorem lineage_antisymm {c d : ClassRef} (hd : d ∈ cs.lineage c) (hc : c ∈ cs.lineage d) : c = d := by
  cases c with
  | builtin b =>
    cases d with
    | builtin b' => cases b <;> cases b' <;> simp_all [lineage, Builtin.lineage]
    | host m => cases b <;> simp [lineage, Builtin.lineage] at hd
  | host n =>
    cases d with
    | builtin b' => cases b' <;> simp [lineage, Builtin.lineage] at hc
    | host m => rw [Nat.le_antisymm (le_of_mem_hostLineage hc) (le_of_mem_hostLineage hd)]

theorem isSubclass_antisymm {c d : ClassRef} (hc : c ≠ .builtin .null) (hd : d ≠ .builtin .null)
    (h : cs.isSubclass c d) (h' : cs.isSubclass d c) : c = d := by
  rw [isSubclass_iff] at h h'
  rcases h with rfl | rfl | above
  · rcases h' with top | null | above
    · exact top
    · exact absurd null hd
    · simpa [lineage, Builtin.lineage] using above
  · exact absurd rfl hc
  · rcases h' with rfl | rfl | above'
    · simpa [lineage, Builtin.lineage, eq_comm] using above
    · exact absurd rfl hd
    · exact lineage_antisymm above above'

/-! ## Acceptance -/

/-- A raw type and one with arguments accept each other. -/
theorem assignable_of_raw (same : a.cls = b.cls) (raw : a.args = [] ∨ b.args = []) : cs.assignable a b := by
  obtain ⟨c, as⟩ := a
  obtain ⟨d, bs⟩ := b
  obtain rfl : c = d := same
  rcases raw with rfl | rfl <;> unfold assignable <;> simp [cs.isSubclass_refl]

/-- A superclass accepts whatever the arguments are. -/
theorem assignable_of_superclass (ne : a.cls ≠ b.cls) (sub : cs.isSubclass a.cls b.cls) : cs.assignable b a := by
  obtain ⟨c, as⟩ := a
  obtain ⟨d, bs⟩ := b
  have sub : cs.isSubclass c d := sub
  have ne : d ≠ c := Ne.symm ne
  unfold assignable
  simp [sub, ne]

theorem assignable_eq_false (h : cs.isSubclass b.cls a.cls = false) : cs.assignable a b = false := by
  rw [← Bool.not_eq_true] at h ⊢
  exact fun fits => h (isSubclass_of_assignable fits)

/-! ## How two types stand to each other -/

/-- The second type is above the first one: it is what is known of values that are of either type. -/
inductive Below (cs : Classes) : Ty → Ty → Prop
  | refl (a : Ty) : Below cs a a
  | null {a b : Ty} (ha : a.isNull) (hb : b.isNull = false) : Below cs a b
  | wider {a b : Ty} {m n : Nat} (ha : a.rank? = some m) (hb : b.rank? = some n) (h : m < n) : Below cs a b
  | superclass {a b : Ty} (ha : a.isNull = false) (hb : b.isNull = false) (ne : a.cls ≠ b.cls)
    (sub : cs.isSubclass a.cls b.cls) : Below cs a b
  /-- Of a raw type and one with arguments the arguments are kept. -/
  | ofRaw {a b : Ty} (same : a.cls = b.cls) (hn : a.isNull = false) (hr : a.isNumeric = false) (ha : a.args = [])
    (hb : b.args ≠ []) : Below cs a b
  /-- The second one accepts the arguments of the first one, but not the other way round. -/
  | wideArgs {a b : Ty} (same : a.cls = b.cls) (hn : a.isNull = false) (hr : a.isNumeric = false)
    (fits : cs.assignable b a) (strictly : cs.assignable a b = false) : Below cs a b

/-- Neither class is a superclass of the other. -/
structure Unrelated (cs : Classes) (a b : Ty) : Prop where
  left : a.isNull = false
  right : b.isNull = false
  numbers : ¬ (a.isNumeric ∧ b.isNumeric)
  not_sub : cs.isSubclass a.cls b.cls = false
  not_super : cs.isSubclass b.cls a.cls = false

/-- Two types of one class of which neither is preferred: they accept each other, or arguments do not count. -/
structure Tied (cs : Classes) (a b : Ty) : Prop where
  ne : a ≠ b
  same : a.cls = b.cls
  equal : a.isNull ∨ a.isNumeric ∨ a.args ≠ [] ∧ b.args ≠ [] ∧ cs.assignable a b ∧ cs.assignable b a

/-- Two types of one class of which neither accepts the arguments of the other. -/
structure Clash (cs : Classes) (a b : Ty) : Prop where
  same : a.cls = b.cls
  notNull : a.isNull = false
  notNumeric : a.isNumeric = false
  refuses : cs.assignable a b = false
  refused : cs.assignable b a = false

/-- How two types stand to each other. -/
inductive Stand (cs : Classes) (a b : Ty) : Prop
  | below (h : cs.Below a b)
  | above (h : cs.Below b a)
  | unrelated (h : cs.Unrelated a b)
  | tied (h : cs.Tied a b)
  | clash (h : cs.Clash a b)

theorem Unrelated.symm (h : cs.Unrelated a b) : cs.Unrelated b a :=
  ⟨h.right, h.left, fun ⟨hb, ha⟩ => h.numbers ⟨ha, hb⟩, h.not_super, h.not_sub⟩

/-- `Object` is unrelated to nothing. -/
theorem Unrelated.not_dynamic (h : cs.Unrelated a b) : a.isDynamic = false := by
  rw [← Bool.not_eq_true]
  intro top
  have never := h.not_super
  rw [isSubclass_iff.2 (.inl (of_decide_eq_true top))] at never
  cases never

theorem Tied.symm (h : cs.Tied a b) : cs.Tied b a where
  ne := h.ne.symm
  same := h.same.symm
  equal := by
    rw [Ty.isNull_congr h.same.symm, Ty.isNumeric_congr h.same.symm]
    exact h.equal.imp_right (Or.imp_right fun ⟨ha, hb, fits, fits'⟩ => ⟨hb, ha, fits', fits⟩)

theorem Clash.symm (h : cs.Clash a b) : cs.Clash b a where
  same := h.same.symm
  notNull := (Ty.isNull_congr h.same.symm).trans h.notNull
  notNumeric := (Ty.isNumeric_congr h.same.symm).trans h.notNumeric
  refuses := h.refused
  refused := h.refuses

/-- Raw types do not clash. -/
theorem Clash.args_ne_nil (h : cs.Clash a b) : a.args ≠ [] ∧ b.args ≠ [] := by
  have never (raw : a.args = [] ∨ b.args = []) : False := by
    have fits : cs.assignable a b := assignable_of_raw h.same raw
    rw [h.refuses] at fits
    cases fits
  exact ⟨fun ha => never (.inl ha), fun hb => never (.inr hb)⟩

/-- Types of one class are raw, accept each other, or clash. -/
theorem stand_of_cls_eq (ne : a ≠ b) (same : a.cls = b.cls) (hn : a.isNull = false) (hr : a.isNumeric = false) :
    cs.Stand a b := by
  have hn' : b.isNull = false := (Ty.isNull_congr same.symm).trans hn
  have hr' : b.isNumeric = false := (Ty.isNumeric_congr same.symm).trans hr
  -- the raw class is below the others of its class; the others are compared by their arguments
  by_cases ha : a.args = []
  · refine .below (.ofRaw same hn hr ha fun hb => ne ?_)
    exact Ty.eq_of_cls_of_args same (ha.trans hb.symm)
  by_cases hb : b.args = []
  · exact .above (.ofRaw same.symm hn' hr' hb ha)
  cases fits : cs.assignable a b with
  | true =>
    cases fits' : cs.assignable b a with
    | true => exact .tied ⟨ne, same, .inr (.inr ⟨ha, hb, fits, fits'⟩)⟩
    | false => exact .above (.wideArgs same.symm hn' hr' fits fits')
  | false =>
    cases fits' : cs.assignable b a with
    | true => exact .below (.wideArgs same hn hr fits' fits)
    | false => exact .clash ⟨same, hn, hr, fits, fits'⟩

/-- There is no other way for two types to stand to each other. -/
theorem stand (cs : Classes) (a b : Ty) : cs.Stand a b := by
  -- by what unification looks at, in its order: equality, null, the class, numbers, then superclasses
  by_cases ne : a = b
  · rw [ne]
    exact .below (.refl b)
  cases ha : a.isNull with
  | true =>
    cases hb : b.isNull with
    | true => exact .tied ⟨ne, (of_decide_eq_true ha).trans (of_decide_eq_true hb).symm, .inl ha⟩
    | false => exact .below (.null ha hb)
  | false =>
    cases hb : b.isNull with
    | true => exact .above (.null hb ha)
    | false =>
      by_cases same : a.cls = b.cls
      · cases hr : a.isNumeric with
        | true => exact .tied ⟨ne, same, .inr (.inl hr)⟩
        | false => exact stand_of_cls_eq ne same ha hr
      · by_cases numbers : a.isNumeric ∧ b.isNumeric
        · rw [Ty.isNumeric_eq_isSome_rank?, Ty.isNumeric_eq_isSome_rank?] at numbers
          obtain ⟨m, hm⟩ := Option.isSome_iff_exists.1 numbers.1
          obtain ⟨n, hn⟩ := Option.isSome_iff_exists.1 numbers.2
          rcases Nat.lt_trichotomy m n with lt | rfl | gt
          · exact .below (.wider hm hn lt)
          · exact absurd (Ty.cls_eq_of_rank? hm hn) same
          · exact .above (.wider hn hm gt)
        · cases sub : cs.isSubclass a.cls b.cls with
          | true => exact .below (.superclass ha hb same sub)
          | false =>
            cases sup : cs.isSubclass b.cls a.cls with
            | true => exact .above (.superclass hb ha (Ne.symm same) sup)
            | false => exact .unrelated ⟨ha, hb, numbers, sub, sup⟩

/-! ## The common type of two types -/

theorem unify_self (cs : Classes) (a : Ty) : cs.unify a a = a := by
  unfold unify
  rw [if_pos (by simp)]

theorem unify_null_right (hb : b.isNull) : cs.unify a b = a := by
  unfold unify
  rw [if_pos (by simp [hb])]

theorem unify_null_left (ha : a.isNull) (hb : b.isNull = false) : cs.unify a b = b := by
  have ne : a ≠ b := by
    rintro rfl
    rw [ha] at hb
    cases hb
  unfold unify
  rw [if_neg (by simp [ne, hb]), if_pos ha]

theorem unify_promoted {m n : Nat} (ne : a ≠ b) (ha : a.rank? = some m) (hb : b.rank? = some n) :
    cs.unify a b = if n ≤ m then a else b := by
  unfold unify
  rw [if_neg (by simp [ne, Ty.isNull_of_rank? hb]), if_neg (by simp [Ty.isNull_of_rank? ha]),
    Ty.promote?_of_rank? ha hb]

/-- What is left when neither type is null and they are not both numbers. -/
theorem unify_classes (ne : a ≠ b) (ha : a.isNull = false) (hb : b.isNull = false)
    (numbers : ¬ (a.isNumeric ∧ b.isNumeric)) :
    cs.unify a b =
      if cs.assignable a b && !a.args.isEmpty then a
      else if cs.assignable b a && !b.args.isEmpty then b
      else if cs.isSubclass b.cls a.cls then .raw a.cls
      else if cs.isSubclass a.cls b.cls then .raw b.cls
      else .object := by
  unfold unify
  rw [if_neg (by simp [ne, hb]), if_neg (by simp [ha]), Ty.promote?_eq_none numbers]

/-- The type above is the common one, whichever comes first. -/
theorem Below.unify_eq (h : cs.Below a b) : cs.unify a b = b ∧ cs.unify b a = b := by
  by_cases ne : a = b
  · rw [ne]
    exact ⟨cs.unify_self b, cs.unify_self b⟩
  have ne' : b ≠ a := Ne.symm ne
  cases h with
  | refl => exact absurd rfl ne
  | null ha hb => exact ⟨unify_null_left ha hb, unify_null_right ha⟩
  | wider ha hb lt =>
    rw [unify_promoted ne ha hb, unify_promoted ne' hb ha, if_neg (by omega), if_pos (by omega)]
    exact ⟨rfl, rfl⟩
  | superclass ha hb other sub =>
    -- the only classes above that of a number are itself and the unknown one, so that nothing is promoted
    have numbers : ¬ (a.isNumeric ∧ b.isNumeric) := by
      rintro ⟨hr, hr'⟩
      rcases eq_of_isSubclass_numeric hr sub with same | top
      · exact other same.symm
      · rw [Ty.isNumeric, top] at hr'
        cases hr'
    have proper : cs.isSubclass b.cls a.cls = false := by
      rw [← Bool.not_eq_true]
      intro sup
      exact other (isSubclass_antisymm (of_decide_eq_false ha) (of_decide_eq_false hb) sub sup)
    have fits : cs.assignable b a := assignable_of_superclass other sub
    have strictly : cs.assignable a b = false := assignable_eq_false proper
    rw [unify_classes ne ha hb numbers, unify_classes ne' hb ha fun ⟨hr', hr⟩ => numbers ⟨hr, hr'⟩]
    cases args : b.args.isEmpty with
    | true =>
      have raw : Ty.raw b.cls = b := Ty.raw_cls (List.isEmpty_iff.1 args)
      simp [strictly, sub, proper, raw]
    | false => simp [strictly, fits]
  | ofRaw same hn hr ha hb =>
    have hn' : b.isNull = false := (Ty.isNull_congr same.symm).trans hn
    have fits : cs.assignable b a := assignable_of_raw same.symm (.inr ha)
    rw [unify_classes ne hn hn' (by simp [hr]), unify_classes ne' hn' hn (by simp [hr])]
    simp [ha, hb, fits]
  | wideArgs same hn hr fits strictly =>
    have hn' : b.isNull = false := (Ty.isNull_congr same.symm).trans hn
    -- with no arguments it would fit in both directions
    have hb : b.args ≠ [] := by
      intro raw
      have fits' : cs.assignable a b := assignable_of_raw same (.inr raw)
      rw [strictly] at fits'
      cases fits'
    rw [unify_classes ne hn hn' (by simp [hr]), unify_classes ne' hn' hn (by simp [hr])]
    simp [hb, fits, strictly]

theorem Unrelated.unify_eq (h : cs.Unrelated a b) : cs.unify a b = .object := by
  have ne : a ≠ b := by
    rintro rfl
    have := h.not_sub
    rw [cs.isSubclass_refl] at this
    cases this
  rw [unify_classes ne h.left h.right h.numbers]
  simp [assignable_eq_false h.not_sub, assignable_eq_false h.not_super, h.not_sub, h.not_super]

/-- Of tied types the first one is taken. -/
theorem Tied.unify_eq (h : cs.Tied a b) : cs.unify a b = a := by
  have null : b.isNull = a.isNull := Ty.isNull_congr h.same.symm
  cases hn : a.isNull with
  | true => exact unify_null_right (null.trans hn)
  | false =>
    cases hr : a.isNumeric with
    | true =>
      -- numbers of one class have one rank, and the first one is kept
      have rank : a.rank? = b.rank? := by unfold Ty.rank?; rw [h.same]
      rw [Ty.isNumeric_eq_isSome_rank?] at hr
      obtain ⟨m, hm⟩ := Option.isSome_iff_exists.1 hr
      rw [unify_promoted h.ne hm (rank.symm.trans hm), if_pos (Nat.le_refl m)]
    | false =>
      rcases h.equal with isNull | isNumeric | ⟨ha, -, fits, -⟩
      · rw [hn] at isNull
        cases isNull
      · rw [hr] at isNumeric
        cases isNumeric
      · rw [unify_classes h.ne hn (null.trans hn) (by simp [hr])]
        simp [fits, ha]

theorem Clash.ne (h : cs.Clash a b) : a ≠ b := by
  rintro rfl
  have refuses := h.refuses
  rw [cs.assignable_refl] at refuses
  cases refuses

/-- Arguments that clash are given up. -/
theorem Clash.unify_eq (h : cs.Clash a b) : cs.unify a b = .raw a.cls := by
  rw [unify_classes h.ne h.notNull h.symm.notNull (by simp [h.notNumeric])]
  simp [h.refuses, h.refused, ← h.same, cs.isSubclass_refl]

/-- The type above is known by its being the common one whichever comes first. -/
theorem below_of_unify_eq (h : cs.unify a b = b) (h' : cs.unify b a = b) : cs.Below a b := by
  cases cs.stand a b with
  | below le => exact le
  | above ge =>
    obtain rfl : b = a := h'.symm.trans ge.unify_eq.1
    exact .refl b
  | unrelated apart =>
    obtain rfl : .object = b := apart.unify_eq.symm.trans h
    cases apart.symm.not_dynamic
  | tied tie => exact absurd (tie.unify_eq.symm.trans h) tie.ne
  | clash clash =>
    have raw : Ty.raw a.cls = b := clash.unify_eq.symm.trans h
    exact absurd (congrArg Ty.args raw).symm clash.args_ne_nil.2

theorem Below.antisymm (h : cs.Below a b) (h' : cs.Below b a) : a = b := h'.unify_eq.2.symm.trans h.unify_eq.1

/-- The order of two types makes a difference just if they are tied. -/
theorem unify_comm_iff : cs.unify a b = cs.unify b a ↔ ¬ cs.Tied a b := by
  constructor
  · intro comm tie
    rw [tie.unify_eq, tie.symm.unify_eq] at comm
    exact tie.ne comm
  · intro free
    cases cs.stand a b with
    | below le => rw [le.unify_eq.1, le.unify_eq.2]
    | above ge => rw [ge.unify_eq.1, ge.unify_eq.2]
    | unrelated apart => rw [apart.unify_eq, apart.symm.unify_eq]
    | tied tie => exact absurd tie free
    | clash clash => rw [clash.unify_eq, clash.symm.unify_eq, clash.same]

/-- A list of which nothing is known and a list of texts accept each other. -/
example : Tied .builtinOnly (.listOf .object) (.listOf .string) :=
  ⟨by decide, rfl, .inr (.inr (by decide))⟩

/-! ### Object -/

/-- What says nothing is above all that says something. -/
theorem below_of_isDynamic (ha : a.isDynamic = false) (hb : b.isDynamic) : cs.Below a b := by
  have top : b.cls = .builtin .object := of_decide_eq_true hb
  have notNull : b.isNull = false := by simp [Ty.isNull, top]
  cases null : a.isNull with
  | true => exact .null null notNull
  | false =>
    refine .superclass null notNull ?_ (isSubclass_iff.2 (.inl top))
    rw [top]
    exact of_decide_eq_false ha

/-- Arguments of `Object` are kept, too. -/
theorem object_below (h : a.isDynamic) : cs.Below .object a := by
  have top : a.cls = .builtin .object := of_decide_eq_true h
  by_cases raw : a.args = []
  · obtain rfl : .object = a := Ty.eq_of_cls_of_args top.symm raw.symm
    exact .refl _
  · exact .ofRaw top.symm rfl rfl rfl raw

/-- Only what says nothing is above what says nothing. -/
theorem Below.isDynamic (h : cs.Below a b) (ha : a.isDynamic) : b.isDynamic := by
  have top : a.cls = .builtin .object := of_decide_eq_true ha
  cases h with
  | refl => exact ha
  | null null => simp [Ty.isNull, top] at null
  | wider rank => simp [Ty.rank?, top] at rank
  | superclass _ _ ne sub =>
    rw [top] at ne sub
    rcases isSubclass_iff.1 sub with same | null | above
    · exact decide_eq_true same
    · cases null
    · simp [lineage, Builtin.lineage, Ne.symm ne] at above
  | ofRaw same => rwa [Ty.isDynamic, ← same]
  | wideArgs same => rwa [Ty.isDynamic, ← same]

/-! ## Types whose order makes no difference -/

/-- The common type of any of these types does not depend on how they are taken up. -/
structure OrderFree (cs : Classes) (ts : List Ty) : Prop where
  comm : ∀ a ∈ ts, ∀ b ∈ ts, cs.unify a b = cs.unify b a
  assoc : ∀ a ∈ ts, ∀ b ∈ ts, ∀ c ∈ ts, cs.unify (cs.unify a b) c = cs.unify a (cs.unify b c)

/-- No two of the types are tied or clash, what is above is transitive among them, and nothing but `Object` is above two
of them that are unrelated. -/
structure Chains (cs : Classes) (ts : List Ty) : Prop where
  related : ∀ a ∈ ts, ∀ b ∈ ts, cs.Below a b ∨ cs.Below b a ∨ cs.Unrelated a b
  trans : ∀ a ∈ ts, ∀ b ∈ ts, ∀ c ∈ ts, cs.Below a b → cs.Below b c → cs.Below a c
  apart : ∀ a ∈ ts, ∀ b ∈ ts, ∀ c ∈ ts, cs.Below a c → cs.Below b c → cs.Unrelated a b → c.isDynamic

theorem OrderFree.chains {ts : List Ty} (h : cs.OrderFree ts) : cs.Chains ts where
  related a ha b hb := by
    cases cs.stand a b with
    | below le => exact .inl le
    | above ge => exact .inr (.inl ge)
    | unrelated apart => exact .inr (.inr apart)
    | tied tie => exact absurd tie (unify_comm_iff.1 (h.comm a ha b hb))
    | clash clash =>
      -- the second type is above the raw one that the two have in common, which is met once more
      have again : cs.unify (.raw a.cls) b = .raw a.cls := by
        have assoc := h.assoc a ha b hb b hb
        rwa [clash.unify_eq, cs.unify_self, clash.unify_eq] at assoc
      have le : cs.Below (.raw a.cls) b := .ofRaw clash.same clash.notNull clash.notNumeric rfl clash.args_ne_nil.2
      have raw : Ty.raw a.cls = b := again.symm.trans le.unify_eq.1
      exact absurd (congrArg Ty.args raw).symm clash.args_ne_nil.2
  trans a ha b hb c hc le le' := by
    have assoc := h.assoc a ha b hb c hc
    rw [le.unify_eq.1, le'.unify_eq.1] at assoc
    exact below_of_unify_eq assoc.symm ((h.comm c hc a ha).trans assoc.symm)
  apart a ha b hb c hc le le' apart := by
    have assoc := h.assoc a ha b hb c hc
    rw [apart.unify_eq, le'.unify_eq.1, le.unify_eq.1] at assoc
    rw [← Bool.not_eq_false]
    intro proper
    have top : cs.unify .object c = .object := (below_of_isDynamic proper rfl).unify_eq.2
    rw [← assoc, top] at proper
    cases proper

namespace Chains

variable {ts pool : List Ty}

/-- `Object` may be added. -/
theorem withObject (h : cs.Chains ts) : cs.Chains (.object :: ts) where
  related a ha b hb := by
    rcases List.mem_cons.1 ha with rfl | ha
    · -- the raw unknown type is above what is known and below what is unknown with arguments
      cases dynamic : b.isDynamic with
      | true => exact .inl (object_below dynamic)
      | false => exact .inr (.inl (below_of_isDynamic dynamic rfl))
    · rcases List.mem_cons.1 hb with rfl | hb
      · cases dynamic : a.isDynamic with
        | true => exact .inr (.inl (object_below dynamic))
        | false => exact .inl (below_of_isDynamic dynamic rfl)
      · exact h.related a ha b hb
  trans a ha b hb c hc le le' := by
    rcases List.mem_cons.1 ha with rfl | ha
    · exact object_below (le'.isDynamic (le.isDynamic rfl))
    cases dynamic : a.isDynamic with
    | false =>
      rcases List.mem_cons.1 hb with rfl | hb
      · exact below_of_isDynamic dynamic (le'.isDynamic rfl)
      · rcases List.mem_cons.1 hc with rfl | hc
        · exact below_of_isDynamic dynamic rfl
        · exact h.trans a ha b hb c hc le le'
    | true =>
      rcases List.mem_cons.1 hb with rfl | hb
      · rwa [le.antisymm (object_below dynamic)]
      · rcases List.mem_cons.1 hc with rfl | hc
        · rwa [← le'.antisymm (object_below (le.isDynamic dynamic))]
        · exact h.trans a ha b hb c hc le le'
  apart a ha b hb c hc le le' apart := by
    rcases List.mem_cons.1 ha with rfl | ha
    · cases apart.not_dynamic
    rcases List.mem_cons.1 hb with rfl | hb
    · cases apart.symm.not_dynamic
    rcases List.mem_cons.1 hc with rfl | hc
    · rfl
    · exact h.apart a ha b hb c hc le le' apart

end Chains

/-- Of types of a pool, the least one in the pool that they are all below of. -/
structure LeastAbove (cs : Classes) (pool ts : List Ty) (m : Ty) : Prop where
  given : ∀ t ∈ ts, t ∈ pool
  mem : m ∈ pool
  above : ∀ t ∈ ts, cs.Below t m
  least : ∀ u ∈ pool, (∀ t ∈ ts, cs.Below t u) → cs.Below m u

namespace LeastAbove

variable {pool ts us : List Ty} {m k : Ty}

theorem single (h : a ∈ pool) : cs.LeastAbove pool [a] a where
  given t ht := by rwa [List.mem_singleton.1 ht]
  mem := h
  above t ht := by
    rw [List.mem_singleton.1 ht]
    exact .refl a
  least u _ above := above a List.mem_cons_self

/-- It depends on what the types are, not on their order or on how often they come. -/
theorem eq (h : cs.LeastAbove pool ts m) (h' : cs.LeastAbove pool us k) (same : ∀ t, t ∈ ts ↔ t ∈ us) : m = k :=
  (h.least k h'.mem fun t ht => h'.above t ((same t).1 ht)).antisymm
    (h'.least m h.mem fun t ht => h.above t ((same t).2 ht))

theorem pair (chains : cs.Chains pool) (top : .object ∈ pool) (ha : a ∈ pool) (hb : b ∈ pool) :
    cs.LeastAbove pool [a, b] (cs.unify a b) := by
  have given : ∀ t ∈ [a, b], t ∈ pool := by simp [ha, hb]
  rcases chains.related a ha b hb with le | ge | apart
  · rw [le.unify_eq.1]
    exact ⟨given, hb, by simp [le, Below.refl], fun u _ above => above b (by simp)⟩
  · rw [ge.unify_eq.2]
    exact ⟨given, ha, by simp [ge, Below.refl], fun u _ above => above a (by simp)⟩
  · rw [apart.unify_eq]
    have le : cs.Below a .object := below_of_isDynamic apart.not_dynamic rfl
    have le' : cs.Below b .object := below_of_isDynamic apart.symm.not_dynamic rfl
    refine ⟨given, top, by simp [le, le'], fun u hu above => object_below ?_⟩
    exact chains.apart a ha b hb u hu (above a (by simp)) (above b (by simp)) apart

/-- The common type of two least ones is the least one for all that they stand for. -/
theorem unify (chains : cs.Chains pool) (top : .object ∈ pool) (h : cs.LeastAbove pool ts m)
    (h' : cs.LeastAbove pool us k) : cs.LeastAbove pool (ts ++ us) (cs.unify m k) := by
  have both : cs.LeastAbove pool [m, k] (cs.unify m k) := .pair chains top h.mem h'.mem
  refine ⟨fun t ht => ?_, both.mem, fun t ht => ?_, fun u hu above => both.least u hu fun t ht => ?_⟩
  · exact (List.mem_append.1 ht).elim (h.given t) (h'.given t)
  · rcases List.mem_append.1 ht with ht | ht
    · exact chains.trans t (h.given t ht) m h.mem _ both.mem (h.above t ht) (both.above m (by simp))
    · exact chains.trans t (h'.given t ht) k h'.mem _ both.mem (h'.above t ht) (both.above k (by simp))
  · have parts : cs.Below m u ∧ cs.Below k u :=
      ⟨h.least u hu fun t ht => above t (List.mem_append_left us ht),
        h'.least u hu fun t ht => above t (List.mem_append_right ts ht)⟩
    simp only [List.mem_cons, List.not_mem_nil, or_false] at ht
    rcases ht with rfl | rfl
    · exact parts.1
    · exact parts.2

/-- Types taken up one after the other. -/
theorem foldl (chains : cs.Chains pool) (top : .object ∈ pool) (h : cs.LeastAbove pool ts m)
    (given : ∀ t ∈ us, t ∈ pool) : cs.LeastAbove pool (ts ++ us) (us.foldl cs.unify m) := by
  induction us generalizing ts m with
  | nil => simpa using h
  | cons u us ih =>
    have next : cs.LeastAbove pool (ts ++ [u]) (cs.unify m u) :=
      h.unify chains top (.single (given u List.mem_cons_self))
    have rest := ih next fun t ht => given t (List.mem_cons_of_mem u ht)
    rwa [List.append_assoc] at rest

end LeastAbove

/-- These conditions are the ones under which the order makes no difference. -/
theorem orderFree_iff_chains {ts : List Ty} : cs.OrderFree ts ↔ cs.Chains ts := by
  refine ⟨OrderFree.chains, fun h => ?_⟩
  have chains : cs.Chains (.object :: ts) := h.withObject
  have top : .object ∈ Ty.object :: ts := List.mem_cons_self
  have one {t : Ty} (ht : t ∈ ts) : cs.LeastAbove (.object :: ts) [t] t := .single (List.mem_cons_of_mem _ ht)
  refine ⟨fun a ha b hb => ?_, fun a ha b hb c hc => ?_⟩
  · refine ((one ha).unify chains top (one hb)).eq ((one hb).unify chains top (one ha)) fun t => ?_
    simp [or_comm]
  · have left := ((one ha).unify chains top (one hb)).unify chains top (one hc)
    have right := (one ha).unify chains top ((one hb).unify chains top (one hc))
    exact left.eq right fun t => by simp

/-- Of two classes with a common superclass `Object` is made if that superclass has not been met before. -/
example :
    let cs : Classes :=
      ⟨[.bare "Animal" none none, .bare "Dog" none (some (.host 0)), .bare "Cat" none (some (.host 0))]⟩
    ¬ cs.OrderFree [.raw (.host 0), .raw (.host 1), .raw (.host 2)] := by
  intro cs free
  exact absurd (free.assoc (.raw (.host 1)) (by decide) (.raw (.host 2)) (by decide) (.raw (.host 0)) (by decide))
    (by decide)

/-! ## The common type of several types -/

/-- Types unified from left to right, if there are any. -/
def unifyAll (cs : Classes) : List Ty → Option Ty
  | [] => none
  | t :: ts => some (ts.foldl cs.unify t)

/-- The common type is `Object` where the types unify to null, or there are none. -/
theorem commonType_eq (ts : List Ty) :
    cs.commonType ts = ((cs.unifyAll ts).filter fun t => !t.isNull).getD .object := by
  cases ts with
  | nil => rfl
  | cons t ts =>
    show (if (ts.foldl cs.unify t).isNull then Ty.object else ts.foldl cs.unify t) = _
    simp only [unifyAll, Option.filter_some]
    split <;> simp_all

/-- The common type is the most specific one that all fit in, among the types themselves and `Object`. -/
theorem LeastAbove.of_unifyAll {pool ts : List Ty} {m : Ty} (chains : cs.Chains pool) (top : .object ∈ pool)
    (given : ∀ t ∈ ts, t ∈ pool) (found : cs.unifyAll ts = some m) : cs.LeastAbove pool ts m := by
  cases ts with
  | nil => cases found
  | cons t ts =>
    cases found
    have first : cs.LeastAbove pool [t] t := .single (given t List.mem_cons_self)
    exact first.foldl chains top fun u hu => given u (List.mem_cons_of_mem t hu)

/-- Types may be taken up in any order and any number of times. -/
theorem Chains.unifyAll_eq {ts us : List Ty} (h : cs.Chains ts) (same : ∀ t, t ∈ ts ↔ t ∈ us) :
    cs.unifyAll ts = cs.unifyAll us := by
  cases ts with
  | nil =>
    obtain rfl : us = [] := List.eq_nil_iff_forall_not_mem.2 fun t ht => by simpa using (same t).2 ht
    rfl
  | cons t ts =>
    cases us with
    | nil => simpa using (same t).1 List.mem_cons_self
    | cons u us =>
      have chains := h.withObject
      have left := LeastAbove.of_unifyAll chains List.mem_cons_self (fun v hv => List.mem_cons_of_mem _ hv) rfl
      have right := LeastAbove.of_unifyAll chains List.mem_cons_self
        (fun v hv => List.mem_cons_of_mem _ ((same v).2 hv)) rfl
      exact congrArg some (left.eq right same)

end Classes

/-! ## What analysis infers -/

open Typed

namespace Context

variable {ctx : Context} {ts : List Ty} {t : Ty}

/-- The type that analysis gives to the items, keys or values of a literal, from their own types as they stand in it. -/
inductive InfersItem (ctx : Context) : List Ty → Ty → Prop
  | array {span : Span} {es : List Syntax.Expr} {hint : Option Ty} {a b : AnalysisState} {i : Info} {item : Ty}
    {items : List Expr} (inferred : expectedItem? hint = none)
    (made : ctx.expr (.inlineArray span es) hint a = (.ok (.newArray i item items), b)) :
    InfersItem ctx (items.map Expr.type) item
  | list {span : Span} {es : List Syntax.Expr} {hint : Option Ty} {a b : AnalysisState} {i : Info}
    {items : List Expr} (made : ctx.expr (.inlineList span es) hint a = (.ok (.inlineList i items), b)) :
    InfersItem ctx (items.map Expr.type) i.type.itemType
  | keys {span : Span} {es : List (Syntax.Expr × Syntax.Expr)} {hint : Option Ty} {a b : AnalysisState} {i : Info}
    {entries : List (Expr × Expr)}
    (made : ctx.expr (.inlineMap span es) hint a = (.ok (.inlineMap i entries), b)) :
    InfersItem ctx (entries.map (·.1.type)) i.type.keyType
  | values {span : Span} {es : List (Syntax.Expr × Syntax.Expr)} {hint : Option Ty} {a b : AnalysisState} {i : Info}
    {entries : List (Expr × Expr)}
    (made : ctx.expr (.inlineMap span es) hint a = (.ok (.inlineMap i entries), b)) :
    InfersItem ctx (entries.map (·.2.type)) i.type.valueType

/-- The type that analysis gives to a value that comes from one of several places, from the types that these have: the
branches of a conditional, or the last statement of a program and the values that it returns. -/
inductive InfersValue (ctx : Context) : List Ty → Ty → Prop
  | conditional {span : Span} {cond left right : Syntax.Expr} {hint : Option Ty} {a b : AnalysisState} {i : Info}
    {test x y : Expr}
    (made : ctx.expr (.conditional span cond left right) hint a = (.ok (.conditional i test x y), b)) :
    InfersValue ctx [x.type, y.type] i.type
  | egress {body : List Syntax.Stmt} {env : Environment} {p : Program} {b : AnalysisState}
    (made : ctx.program body (.ofEnvironment env) = (.ok p, b)) :
    InfersValue ctx (lastType p.body :: b.returns.reverse) p.egress

theorem InfersItem.eq_commonType (h : ctx.InfersItem ts t) : t = ctx.classes.commonType ts := by
  -- in each of the four literals the item type is what analysis unified the parts to
  cases h with
  | array inferred made =>
    simp only [expr, inferred] at made
    obtain ⟨items, c, -, made⟩ := Analysis.bind_ok made
    cases made
    rfl
  | list made =>
    simp only [expr] at made
    obtain ⟨items, c, -, made⟩ := Analysis.bind_ok made
    obtain ⟨⟨⟩, d, -, made⟩ := Analysis.bind_ok made
    cases made
    rfl
  | keys made =>
    simp only [expr] at made
    obtain ⟨entries, c, -, made⟩ := Analysis.bind_ok made
    obtain ⟨⟨⟩, d, -, made⟩ := Analysis.bind_ok made
    cases made
    rfl
  | values made =>
    simp only [expr] at made
    obtain ⟨entries, c, -, made⟩ := Analysis.bind_ok made
    obtain ⟨⟨⟩, d, -, made⟩ := Analysis.bind_ok made
    cases made
    rfl

theorem InfersValue.eq_unifyAll (h : ctx.InfersValue ts t) : ctx.classes.unifyAll ts = some t := by
  cases h with
  | conditional made =>
    simp only [expr] at made
    obtain ⟨test, c, -, made⟩ := Analysis.bind_ok made
    obtain ⟨⟨⟩, d, -, made⟩ := Analysis.bind_ok made
    obtain ⟨x, e, -, made⟩ := Analysis.bind_ok made
    obtain ⟨y, f, -, made⟩ := Analysis.bind_ok made
    cases made
    rfl
  | egress made =>
    obtain ⟨body, c, -, made⟩ := Analysis.bind_ok made
    cases made
    exact congrArg some List.foldl_reverse

/-- **Types and their order.** The common type of two types depends on their order just if they are tied. Unifying is
commutative and associative among given types just if no two of them are tied or clash, what is above is transitive
among them, and only `Object` is above two of them that are unrelated. Then the type of the items, keys or values of a
literal, the type of a conditional and the type of a program are the same whenever the types that they are taken from
are, in whatever order these come. -/
theorem unified_whatever_order (ctx : Context) :
    (∀ a b, ctx.classes.unify a b = ctx.classes.unify b a ↔ ¬ ctx.classes.Tied a b)
      ∧ (∀ ts, ctx.classes.OrderFree ts ↔ ctx.classes.Chains ts)
      ∧ ∀ ts us, ctx.classes.Chains ts → (∀ t, t ∈ ts ↔ t ∈ us) →
        (∀ t u, ctx.InfersItem ts t → ctx.InfersItem us u → t = u)
          ∧ ∀ t u, ctx.InfersValue ts t → ctx.InfersValue us u → t = u := by
  refine ⟨fun a b => Classes.unify_comm_iff, fun ts => Classes.orderFree_iff_chains, fun ts us chains same => ⟨?_, ?_⟩⟩
  · intro t u h h'
    rw [h.eq_commonType, h'.eq_commonType, Classes.commonType_eq, Classes.commonType_eq, chains.unifyAll_eq same]
  · intro t u h h'
    have equal := chains.unifyAll_eq same
    rw [h.eq_unifyAll, h'.eq_unifyAll] at equal
    exact Option.some.inj equal

/-- The list `[1, null, 2L]`. -/
def numbersAndNull : Syntax.Expr :=
  .inlineList ⟨0, 13⟩ [.literal ⟨1, 2⟩ (.int 1), .literal ⟨4, 8⟩ .null, .literal ⟨10, 12⟩ (.long 2)]

/-- Its items are of type `Long`, and so are those of any list of a long integer, an integer and null. -/
theorem unified_whatever_order_numbersAndNull :
    let ctx : Context := ⟨.bare, .builtin, [], "[1, null, 2L]".toList⟩
    ctx.classes.OrderFree [.integer, .null, .long]
      ∧ ctx.InfersItem [.integer, .null, .long] .long
      ∧ ∀ t, ctx.InfersItem [.long, .integer, .null] t → t = .long := by
  intro ctx
  have free : ctx.classes.OrderFree [.integer, .null, .long] := ⟨by decide, by decide⟩
  have made : ctx.expr numbersAndNull none (.ofEnvironment (.ofConfig .default)) = (.ok (.inlineList _ _), _) := rfl
  have inferred : ctx.InfersItem [.integer, .null, .long] .long := .list made
  have same (t : Ty) : t ∈ [Ty.integer, .null, .long] ↔ t ∈ [Ty.long, .integer, .null] := by
    simp only [List.mem_cons, List.not_mem_nil, or_left_comm, or_comm]
  obtain ⟨-, chains, order⟩ := ctx.unified_whatever_order
  refine ⟨free, inferred, fun t h => ?_⟩
  exact ((order _ _ ((chains _).1 free) same).1 _ _ inferred h).symm

end Context

end HostExpr
