import HostExpr.Proofs.Call.Conversion

/-!
# The order of classes and types

A class stands for its superclasses. Where types are promoted, a narrower number also stands for a wider one: values
are not converted then. `Classes.widens` is the order of classes that takes in both, and the best common type of two
types bounds them in it.
-/

namespace HostExpr

/-- The classes whose values can be met where a class is recorded, superclasses apart. -/
def ClassRef.narrower : ClassRef → List ClassRef
  | .builtin .long => [.builtin .long, .builtin .integer]
  | .builtin .double => [.builtin .double, .builtin .long, .builtin .integer]
  | c => [c]

namespace Classes

variable (cs : Classes)

/-- Values of the first class can stand where the second one is recorded: a superclass or a wider number. -/
def widens (c d : ClassRef) : Bool := d.narrower.any (cs.isSubclass c)

/-- The value is what a type promises that analysis records: null, or of the class of the type or of a narrower
number. Type arguments promise nothing. -/
def suits (v : Value) (t : Ty) : Bool := cs.widens v.classRef t.cls

/-- Nothing extends the class of null. -/
def NullAlone : Prop := ∀ c, .builtin .null ∈ cs.lineage c → c = .builtin .null

variable {cs}

/-! ## Superclasses -/

/-- More fuel than the number of the class makes no difference. -/
theorem hostLineage_eq {f g n : Nat} (hf : n < f) (hg : n < g) : cs.hostLineage f n = cs.hostLineage g n := by
  induction f generalizing g n with
  | zero => omega
  | succ f ih =>
    cases g with
    | zero => omega
    | succ g =>
      unfold hostLineage
      split
      · rfl
      · rename_i m _
        by_cases hm : m < n
        · have same : cs.hostLineage f m = cs.hostLineage g m := ih (by omega) (by omega)
          rw [if_pos hm, if_pos hm, same]
        · rw [if_neg hm, if_neg hm]
      · rfl

/-- The superclasses of a superclass of a built-in class. -/
theorem mem_builtinLineage {b : Builtin} {d e : ClassRef} (hd : d ∈ b.lineage) (he : e ∈ cs.lineage d) :
    e ∈ b.lineage := by
  cases b <;> simp only [Builtin.lineage, List.mem_cons, List.not_mem_nil, or_false] at hd <;>
    rcases hd with rfl | rfl <;> simp_all [lineage, Builtin.lineage]

/-- A superclass of a superclass is a superclass. -/
theorem lineage_trans {c d e : ClassRef} (hd : d ∈ cs.lineage c) (he : e ∈ cs.lineage d) : e ∈ cs.lineage c := by
  cases c with
  | builtin b => exact mem_builtinLineage hd he
  | host n =>
    -- the superclass of a class of the host is one that was defined before, or one that is built in
    induction n using Nat.strongRecOn with
    | ind n ih =>
      rcases List.mem_cons.1 hd with rfl | above
      · exact he
      · refine List.mem_cons_of_mem _ ?_
        split at above
        · exact mem_builtinLineage above he
        · rename_i m _
          split at above
          · rename_i hm
            rw [if_pos hm]
            rw [hostLineage_eq hm (Nat.lt_succ_self m)] at above ⊢
            exact ih m hm above
          · cases above
        · cases above

theorem isSubclass_iff {c d : ClassRef} :
    cs.isSubclass c d ↔ d = .builtin .object ∨ c = .builtin .null ∨ d ∈ cs.lineage c := by
  simp [isSubclass, ClassRef.isDynamic, or_assoc]

/-- What stands for a class stands for whatever that class stands for. -/
theorem isSubclass_trans (hn : cs.NullAlone) {c d e : ClassRef} (h : cs.isSubclass c d) (h' : cs.isSubclass d e) :
    cs.isSubclass c e := by
  rw [isSubclass_iff] at h h' ⊢
  rcases h' with top | rfl | above
  · exact .inl top
  · rcases h with h | h | h
    · cases h
    · exact .inr (.inl h)
    · exact .inr (.inl (hn c h))
  · rcases h with rfl | h | h
    · exact .inl (by simpa [lineage, Builtin.lineage] using above)
    · exact .inr (.inl h)
    · exact .inr (.inr (lineage_trans h above))

/-- Where a type accepts another, its class is a superclass. -/
theorem isSubclass_of_assignable {p t : Ty} (h : cs.assignable p t) : cs.isSubclass t.cls p.cls := by
  obtain ⟨c, as⟩ := p
  obtain ⟨d, bs⟩ := t
  unfold assignable at h
  unfold isSubclass Ty.cls
  split at h
  · rename_i known
    rcases Bool.or_eq_true_iff.1 known with known | known
    · simp [known]
    · simp [of_decide_eq_true known]
  · split at h
    · cases h
    · rename_i sub
      have sub : cs.isSubclass d c := by simpa using sub
      exact sub

/-! ## Wider classes -/

theorem mem_narrower_self (c : ClassRef) : c ∈ c.narrower := by
  unfold ClassRef.narrower
  split <;> simp

theorem widens_of_isSubclass {c d : ClassRef} (h : cs.isSubclass c d) : cs.widens c d :=
  List.any_eq_true.2 ⟨d, mem_narrower_self d, h⟩

theorem widens_refl (cs : Classes) (c : ClassRef) : cs.widens c c := widens_of_isSubclass (cs.isSubclass_refl c)

/-- Every class stands for the one that says nothing. -/
theorem widens_object (cs : Classes) (c : ClassRef) : cs.widens c (.builtin .object) :=
  widens_of_isSubclass (isSubclass_iff.2 (.inl rfl))

/-- A class has no narrower one than itself, unless it is one of numbers. -/
theorem narrower_of_not_numeric {c : ClassRef} (h : c.isNumeric = false) : c.narrower = [c] := by
  unfold ClassRef.narrower
  split
  · cases h
  · cases h
  · rfl

/-- A narrower number is a number. -/
theorem isNumeric_of_mem_narrower {c d : ClassRef} (hd : d ∈ c.narrower) : d.isNumeric = c.isNumeric := by
  unfold ClassRef.narrower at hd
  split at hd
  · simp only [List.mem_cons, List.not_mem_nil, or_false] at hd
    rcases hd with rfl | rfl <;> rfl
  · simp only [List.mem_cons, List.not_mem_nil, or_false] at hd
    rcases hd with rfl | rfl | rfl <;> rfl
  · rw [List.mem_singleton.1 hd]

/-- What is narrower than a narrower number is narrower. -/
theorem narrower_trans {c d e : ClassRef} (hd : d ∈ c.narrower) (he : e ∈ d.narrower) : e ∈ c.narrower := by
  unfold ClassRef.narrower at hd
  split at hd
  · simp only [List.mem_cons, List.not_mem_nil, or_false] at hd
    rcases hd with rfl | rfl
    · exact he
    · simp_all [ClassRef.narrower]
  · simp only [List.mem_cons, List.not_mem_nil, or_false] at hd
    rcases hd with rfl | rfl | rfl
    · exact he
    · simp_all [ClassRef.narrower]
    · simp_all [ClassRef.narrower]
  · rw [List.mem_singleton.1 hd] at he
    exact he

/-- A number stands for itself and for what says nothing. -/
theorem eq_of_isSubclass_numeric {c d : ClassRef} (hc : c.isNumeric) (h : cs.isSubclass c d) :
    d = c ∨ d = .builtin .object := by
  rw [isSubclass_iff] at h
  rcases h with h | rfl | h
  · exact .inr h
  · cases hc
  · unfold ClassRef.isNumeric at hc
    split at hc
    · simpa [lineage, Builtin.lineage] using h
    · simpa [lineage, Builtin.lineage] using h
    · simpa [lineage, Builtin.lineage] using h
    · cases hc

theorem widens_trans (hn : cs.NullAlone) {c d e : ClassRef} (h : cs.widens c d) (h' : cs.widens d e) :
    cs.widens c e := by
  obtain ⟨d', hd, sub⟩ := List.any_eq_true.1 h
  obtain ⟨e', he, sub'⟩ := List.any_eq_true.1 h'
  cases hd' : d.isNumeric with
  | false =>
    rw [narrower_of_not_numeric hd', List.mem_singleton] at hd
    rw [hd] at sub
    exact List.any_eq_true.2 ⟨e', he, isSubclass_trans hn sub sub'⟩
  | true =>
    -- above the class of a number are only that class and the unknown one
    rcases eq_of_isSubclass_numeric hd' sub' with rfl | rfl
    · exact List.any_eq_true.2 ⟨d', narrower_trans he hd, sub⟩
    · have top : e = .builtin .object := by
        have := isNumeric_of_mem_narrower he
        rw [narrower_of_not_numeric this.symm, List.mem_singleton] at he
        exact he.symm
      rw [top]
      exact cs.widens_object c

/-- Null stands for every class. -/
theorem widens_null (cs : Classes) (c : ClassRef) : cs.widens (.builtin .null) c :=
  widens_of_isSubclass (isSubclass_iff.2 (.inr (.inl rfl)))

/-! ## Common types -/

/-- The wider of two numeric types is one of them, and the other is narrower. -/
theorem mem_narrower_of_promote? {a b t : Ty} (h : a.promote? b = some t) :
    a.cls ∈ t.cls.narrower ∧ b.cls ∈ t.cls.narrower := by
  obtain ⟨c, as⟩ := a
  obtain ⟨d, bs⟩ := b
  unfold Ty.promote? at h
  split at h
  · rename_i m n hm hn
    unfold Ty.rank? Ty.cls at hm hn
    split at hm <;> split at hn <;> cases hm <;> cases hn <;> cases h <;> simp_all [ClassRef.narrower, Ty.cls]
  · cases h

theorem widens_promote? {a b t : Ty} (h : a.promote? b = some t) : cs.widens a.cls t.cls ∧ cs.widens b.cls t.cls := by
  obtain ⟨ha, hb⟩ := mem_narrower_of_promote? h
  exact ⟨List.any_eq_true.2 ⟨_, ha, cs.isSubclass_refl _⟩, List.any_eq_true.2 ⟨_, hb, cs.isSubclass_refl _⟩⟩

/-- Both types fit in their common one. -/
theorem widens_unify (cs : Classes) (a b : Ty) :
    cs.widens a.cls (cs.unify a b).cls ∧ cs.widens b.cls (cs.unify a b).cls := by
  -- one case for each rule of unification, in the order of the rules; the last one gives the unknown type
  unfold unify
  split
  · rename_i h
    refine ⟨cs.widens_refl _, ?_⟩
    rcases Bool.or_eq_true_iff.1 h with h | h
    · rw [of_decide_eq_true h]
      exact cs.widens_refl _
    · rw [of_decide_eq_true h]
      exact cs.widens_null _
  · split
    · rename_i h
      rw [of_decide_eq_true h]
      exact ⟨cs.widens_null _, cs.widens_refl _⟩
    · split
      · rename_i t h
        exact widens_promote? h
      · split
        · rename_i h
          exact ⟨cs.widens_refl _, widens_of_isSubclass (isSubclass_of_assignable (Bool.and_eq_true_iff.1 h).1)⟩
        · split
          · rename_i h
            exact ⟨widens_of_isSubclass (isSubclass_of_assignable (Bool.and_eq_true_iff.1 h).1), cs.widens_refl _⟩
          · split
            · rename_i h
              exact ⟨cs.widens_refl _, widens_of_isSubclass h⟩
            · split
              · rename_i h
                exact ⟨widens_of_isSubclass h, cs.widens_refl _⟩
              · exact ⟨cs.widens_object _, cs.widens_object _⟩

/-! ## Values -/

/-- What satisfies a type suits it. -/
theorem suits_of_satisfies {v : Value} {t : Ty} (h : cs.satisfies v t) : cs.suits v t := by
  refine widens_of_isSubclass (isSubclass_iff.2 ?_)
  unfold satisfies at h
  split at h
  · rename_i known
    rcases Bool.or_eq_true_iff.1 known with known | known
    · exact .inl (of_decide_eq_true known)
    · rw [of_decide_eq_true known]
      exact .inr (.inl rfl)
  · split at h
    · have array : t.cls = .builtin .array := of_decide_eq_true (Bool.and_eq_true_iff.1 h).1
      rw [array]
      exact .inr (.inr List.mem_cons_self)
    · exact isSubclass_iff.1 h

theorem suits_of_eq {v : Value} {t : Ty} (h : v.classRef = t.cls) : cs.suits v t := by
  unfold suits
  rw [h]
  exact cs.widens_refl _

/-- Nothing is asked of a value where nothing is recorded. -/
theorem suits_of_isDynamic {t : Ty} (h : t.isDynamic) (v : Value) : cs.suits v t := by
  have top : t.cls = .builtin .object := of_decide_eq_true h
  unfold suits
  rw [top]
  exact cs.widens_object _

theorem suits_null (cs : Classes) (t : Ty) : cs.suits .null t := cs.widens_null _

theorem suits_of_widens (hn : cs.NullAlone) {v : Value} {t u : Ty} (h : cs.suits v t) (wider : cs.widens t.cls u.cls) :
    cs.suits v u := widens_trans hn h wider

end Classes

end HostExpr
