import HostExpr.Member.Access

/-!
# What is chosen takes the arguments

Whatever overload resolution chooses among candidates takes as many arguments as there are, and accepts them. Filters,
the rule of the most specific candidate and the breaking of ties only ever drop candidates from those that do.
-/

namespace HostExpr

/-- The candidates that a choice names. -/
def Resolution.chosen : Resolution → List Nat
  | unique i _ => [i]
  | ambiguous is => is
  | deferred | noMatch => []

namespace Overload

variable {cs : Classes}

/-- A candidate keeps its place in the list. -/
theorem getElem?_of_mem_enumerate {params : List (List Ty)} {start : Nat} {c : Candidate}
    (h : c ∈ enumerate start params) : ∃ i, c.index = start + i ∧ params[i]? = some c.params := by
  induction params generalizing start with
  | nil => cases h
  | cons p params ih =>
    rcases List.mem_cons.1 h with rfl | h
    · exact ⟨0, rfl, rfl⟩
    · obtain ⟨i, hi, hp⟩ := ih h
      refine ⟨i + 1, ?_, hp⟩
      rw [hi]
      omega

theorem deepestAt_subset (cs : Classes) (position : Nat) (pool : List Candidate) :
    deepestAt cs position pool ⊆ pool := by
  intro c hc
  exact (List.mem_filter.1 hc).1

theorem maximal_subset (cs : Classes) (pool : List Candidate) : maximal cs pool ⊆ pool := by
  intro c hc
  exact (List.mem_filter.1 hc).1

/-- The breaking of ties chooses from the pool. -/
theorem mem_of_chosen_breakTies {coerced : Bool} {arity position : Nat} {pool : List Candidate} {i : Nat}
    (h : i ∈ (breakTies cs coerced arity position pool).chosen) : ∃ c ∈ pool, c.index = i := by
  induction arity generalizing position pool with
  | zero => exact List.mem_map.1 h
  | succ arity ih =>
    unfold breakTies at h
    have within := deepestAt_subset cs position pool
    split at h
    · rename_i only hp
      obtain rfl := List.mem_singleton.1 h
      exact ⟨only, within (hp ▸ List.mem_singleton_self only), rfl⟩
    · obtain ⟨c, hc, hi⟩ := ih h
      exact ⟨c, within hc, hi⟩

/-- What is picked is one of the viable candidates. -/
theorem mem_of_chosen_pick {arity : Nat} {viable : List Candidate} {coerced : Bool} {i : Nat}
    (h : i ∈ (pick cs arity viable coerced).chosen) : ∃ c ∈ viable, c.index = i := by
  unfold pick at h
  split at h
  · rename_i only
    obtain rfl := List.mem_singleton.1 h
    exact ⟨only, List.mem_singleton_self only, rfl⟩
  · have within := maximal_subset cs viable
    split at h
    · rename_i only hm
      obtain rfl := List.mem_singleton.1 h
      exact ⟨only, within (hm ▸ List.mem_singleton_self only), rfl⟩
    · exact mem_of_chosen_breakTies h
    · obtain ⟨c, hc, hi⟩ := mem_of_chosen_breakTies h
      exact ⟨c, within hc, hi⟩

variable {candidates : List (List Ty)} {args : List Ty} {coercible : Ty → Ty → Bool}

/-- What is chosen takes as many arguments as there are, and accepts them, as they are or converted. -/
theorem of_chosen_resolve {i : Nat} (h : i ∈ (resolve cs candidates args coercible).chosen) :
    ∃ params, candidates[i]? = some params ∧ params.length = args.length
      ∧ acceptsAll (fun p a => cs.assignable p a || a.isDynamic || coercible a p) params args := by
  -- every stage filters the same row of candidates, so that the position of a chosen one is known
  have place : ∀ c ∈ (enumerate 0 candidates).filter (·.params.length = args.length),
      acceptsAll (fun p a => cs.assignable p a || a.isDynamic || coercible a p) c.params args → c.index = i →
      ∃ params, candidates[i]? = some params ∧ params.length = args.length
        ∧ acceptsAll (fun p a => cs.assignable p a || a.isDynamic || coercible a p) params args := by
    rintro c hc fits rfl
    obtain ⟨hc, hl⟩ := List.mem_filter.1 hc
    obtain ⟨j, hj, hp⟩ := getElem?_of_mem_enumerate hc
    rw [Nat.zero_add] at hj
    exact ⟨c.params, hj ▸ hp, of_decide_eq_true hl, fits⟩
  unfold resolve at h
  dsimp only at h
  split at h
  · cases h
  · split at h
    · cases h
    · split at h
      · -- what is accepted without conversions is accepted with them
        obtain ⟨c, hc, hi⟩ := mem_of_chosen_pick h
        obtain ⟨hc, fits⟩ := List.mem_filter.1 hc
        refine place c hc ?_ hi
        unfold acceptsAll at fits ⊢
        rw [List.all_eq_true] at fits ⊢
        intro pair hp
        simp only [fits pair hp, Bool.true_or]
      · split at h
        · obtain ⟨c, hc, hi⟩ := mem_of_chosen_pick h
          obtain ⟨hc, fits⟩ := List.mem_filter.1 hc
          exact place c hc fits hi
        · cases h

/-- Where there is a match, some candidate takes as many arguments as there are. -/
theorem exists_length_of_resolve (h : resolve cs candidates args coercible ≠ .noMatch) :
    ∃ params ∈ candidates, params.length = args.length := by
  cases hb : (enumerate 0 candidates).filter (·.params.length = args.length) with
  | nil =>
    unfold resolve at h
    rw [hb] at h
    exact absurd rfl h
  | cons c rest =>
    have hc : c ∈ (enumerate 0 candidates).filter (·.params.length = args.length) := hb ▸ List.mem_cons_self
    obtain ⟨hc, hl⟩ := List.mem_filter.1 hc
    obtain ⟨j, -, hp⟩ := getElem?_of_mem_enumerate hc
    exact ⟨c.params, List.mem_of_getElem? hp, of_decide_eq_true hl⟩

end Overload

namespace World

variable {w : World} {candidates : List Method} {owner : Ty} {args : List Value} {m : Method} {params : List Ty}

/-- What a call selects is a candidate, with its own parameter types, and takes the arguments that there are. -/
theorem of_select? (h : w.select? candidates owner args = some (m, params)) :
    m ∈ candidates ∧ params = w.classes.paramTypes owner m ∧ params.length = args.length := by
  unfold select? at h
  obtain ⟨i, chosen, found⟩ := Option.bind_eq_some_iff.1 h
  split at found
  · rename_i m' params' hm hp
    cases found
    have own : params = w.classes.paramTypes owner m := by
      rw [List.getElem?_map, hm] at hp
      exact (Option.some.inj hp).symm
    refine ⟨List.mem_of_getElem? hm, own, ?_⟩
    -- the resolution looks at candidates of the right length only, by whichever stage it chooses
    have fits : i ∈ (Overload.resolve w.classes (candidates.map (w.classes.paramTypes owner))
        (args.map Value.runtimeType) w.canCoerce).chosen → params.length = args.length := by
      intro hi
      obtain ⟨ps, hps, hl, -⟩ := Overload.of_chosen_resolve hi
      rw [hp] at hps
      rw [Option.some.inj hps, hl, List.length_map]
    split at chosen
    · rename_i j coerced hr
      cases chosen
      exact fits (by rw [hr]; exact List.mem_singleton_self i)
    · rename_i is hr
      exact fits (by rw [hr]; exact List.mem_of_head? chosen)
    · -- the choice is one that types cannot make, and the first of the right length is taken
      obtain ⟨hlt, hl, -⟩ := List.findIdx?_eq_some_iff_getElem.1 chosen
      rw [List.getElem?_eq_getElem hlt] at hp
      rw [← Option.some.inj hp]
      exact of_decide_eq_true hl
    · cases chosen
  · cases found

end World

end HostExpr
