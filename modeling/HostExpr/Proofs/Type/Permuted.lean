import HostExpr.Type.Overload
import Mathlib.Data.List.FinRange
import Mathlib.Data.List.Perm.Basic

/-!
# Overload resolution and the order of the candidates

The outcome of a choice names candidates by their places. If the candidates are put in another order, it names the same
candidates at their new places: every filter keeps the same ones, the most specific of them are the same, and so are
those that a tie leaves at each position. `resolve_permuted` says so for all orders of all candidates, equal ones
included.
-/

namespace HostExpr

/-- Two choices are the same but for the places of the candidates: what the first one has at `i`, the second one has at
`place i`. Equally specific candidates may come in any order. -/
inductive Resolution.Moved (place : Nat → Nat) : Resolution → Resolution → Prop
  | unique (i : Nat) (coerced : Bool) : Moved place (unique i coerced) (unique (place i) coerced)
  | deferred : Moved place deferred deferred
  | ambiguous {is js : List Nat} (same : js.Perm (is.map place)) : Moved place (ambiguous is) (ambiguous js)
  | noMatch : Moved place noMatch noMatch

namespace Overload

variable {cs : Classes} {place : Nat → Nat}

/-- A candidate at another place. -/
def Candidate.at (place : Nat → Nat) (c : Candidate) : Candidate := ⟨place c.index, c.params⟩

/-- The second candidates are the first ones at other places, in any order. -/
def Moved (place : Nat → Nat) (pool pool' : List Candidate) : Prop := pool'.Perm (pool.map (Candidate.at place))

variable {pool pool' : List Candidate}

namespace Moved

theorem length_eq (h : Moved place pool pool') : pool'.length = pool.length := by
  rw [List.Perm.length_eq h, List.length_map]

theorem isEmpty_eq (h : Moved place pool pool') : pool'.isEmpty = pool.isEmpty := by
  rw [List.Perm.isEmpty_eq h, List.isEmpty_map]

theorem nil (h : Moved place pool pool') (none : pool = []) : pool' = [] := by
  rw [← List.isEmpty_iff, h.isEmpty_eq, none]
  rfl

/-- A test that does not look at places keeps the same candidates. -/
theorem filter (h : Moved place pool pool') {keep keep' : Candidate → Bool}
    (same : ∀ c, keep' (c.at place) = keep c) : Moved place (pool.filter keep) (pool'.filter keep') := by
  have kept : (pool.map (Candidate.at place)).filter keep' = (pool.filter keep).map (Candidate.at place) := by
    rw [List.filter_map]
    congr 2
    funext c
    exact same c
  unfold Moved
  rw [← kept]
  exact List.Perm.filter keep' h

/-- The candidates that pass a test which does not look at places. -/
theorem keeping (h : Moved place pool pool') (keep : Candidate → Bool) (same : ∀ c, keep (c.at place) = keep c) :
    Moved place (pool.filter keep) (pool'.filter keep) := h.filter same

/-- A candidate that is the only one is the only one elsewhere. -/
theorem singleton {only : Candidate} (h : Moved place pool pool') (one : pool = [only]) : pool' = [only.at place] := by
  subst one
  exact List.perm_singleton.1 h

/-- Candidates that are several are several elsewhere. -/
theorem several (h : Moved place pool pool') (more : ∀ only, pool = [only] → False) (only : Candidate) :
    pool' ≠ [only] := by
  intro one
  have length : pool.length = 1 := by rw [← h.length_eq, one, List.length_singleton]
  obtain ⟨single, one⟩ := List.length_eq_one_iff.1 length
  exact more single one

theorem indices (h : Moved place pool pool') :
    (pool'.map Candidate.index).Perm ((pool.map Candidate.index).map place) := by
  have := List.Perm.map Candidate.index h
  rw [List.map_map] at this ⊢
  exact this

/-- The most specific candidates are the same. Places only serve to tell a candidate from the others. -/
theorem maximal (injective : place.Injective) (h : Moved place pool pool') :
    Moved place (maximal cs pool) (maximal cs pool') := by
  refine h.filter fun c => ?_
  rw [List.Perm.all_eq h, List.all_map]
  congr 1
  funext d
  simp [Candidate.at, injective.eq_iff]

/-- The most derived class at a position is the same. -/
theorem deepestAt (h : Moved place pool pool') (position : Nat) :
    Moved place (deepestAt cs position pool) (deepestAt cs position pool') := by
  have deepest : pool'.foldl (fun n c => max n (depthAt cs position c)) 0
      = pool.foldl (fun n c => max n (depthAt cs position c)) 0 := by
    rw [List.Perm.foldl_eq' h (fun c _ d _ n => by omega) 0, List.foldl_map]
    rfl
  unfold Overload.deepestAt
  rw [deepest]
  exact h.filter fun c => rfl

end Moved

/-- Ties are broken alike, by induction on the positions that are left. -/
theorem moved_breakTies (coerced : Bool) (arity position : Nat) (h : Moved place pool pool') :
    (breakTies cs coerced arity position pool).Moved place (breakTies cs coerced arity position pool') := by
  induction arity generalizing position pool pool' with
  | zero => exact .ambiguous h.indices
  | succ arity ih =>
    have deepest : Moved place (deepestAt cs position pool) (deepestAt cs position pool') := h.deepestAt position
    unfold breakTies
    split
    next only one =>
      rw [deepest.singleton one]
      exact .unique only.index coerced
    next more =>
      split
      next only one => exact absurd one (deepest.several more only)
      next => exact ih (position + 1) deepest

theorem pick_of_several {viable : List Candidate} (more : ∀ only, viable = [only] → False) (arity : Nat)
    (coerced : Bool) :
    pick cs arity viable coerced =
      match maximal cs viable with
      | [only] => .unique only.index coerced
      | [] => breakTies cs coerced arity 0 viable
      | best => breakTies cs coerced arity 0 best := by
  unfold pick
  split
  next only => exact absurd rfl (more only)
  next => rfl

/-- The pick among viable candidates is the same. -/
theorem moved_pick (injective : place.Injective) (arity : Nat) (coerced : Bool) (h : Moved place pool pool') :
    (pick cs arity pool coerced).Moved place (pick cs arity pool' coerced) := by
  by_cases one : ∃ only, pool = [only]
  · obtain ⟨only, rfl⟩ := one
    rw [h.singleton rfl]
    exact .unique only.index coerced
  · have more : ∀ only, pool = [only] → False := fun only single => one ⟨only, single⟩
    -- what is best of the candidates does not depend on where they stand
    have best : Moved place (maximal cs pool) (maximal cs pool') := h.maximal injective
    rw [pick_of_several more, pick_of_several (h.several more)]
    split
    next only single =>
      rw [best.singleton single]
      exact .unique only.index coerced
    next none =>
      rw [best.nil none]
      exact moved_breakTies coerced arity 0 h
    next more some =>
      split
      next only single => exact absurd single (best.several more only)
      next none =>
        have := best.isEmpty_eq
        rw [none] at this
        exact absurd (List.isEmpty_iff.1 this.symm) some
      next => exact moved_breakTies coerced arity 0 best

/-! ## Orders of candidates -/

/-- The candidates of a list in another order: `order i` says which of them comes at `i`. -/
def permuted {α : Type} (as : List α) (order : Equiv.Perm (Fin as.length)) : List α := List.ofFn fun i => as[order i]

/-- Where a permutation of the first `n` numbers takes a number; others stay. -/
def placeOf {n : Nat} (order : Equiv.Perm (Fin n)) (i : Nat) : Nat := if h : i < n then order ⟨i, h⟩ else i

theorem placeOf_val {n : Nat} (order : Equiv.Perm (Fin n)) (i : Fin n) : placeOf order i = order i := by
  simp [placeOf]

theorem placeOf_injective {n : Nat} (order : Equiv.Perm (Fin n)) : (placeOf order).Injective := by
  intro i j same
  unfold placeOf at same
  split at same <;> split at same
  next hi hj =>
    have := order.injective (Fin.ext same)
    exact congrArg Fin.val this
  next hi hj => exact absurd (same ▸ (order ⟨i, hi⟩).isLt) hj
  next hi hj => exact absurd (same.symm ▸ (order ⟨j, hj⟩).isLt) hi
  next => exact same

theorem enumerate_ofFn {n : Nat} (start : Nat) (candidates : Fin n → List Ty) :
    enumerate start (List.ofFn candidates) = List.ofFn fun i => ⟨start + i, candidates i⟩ := by
  induction n generalizing start with
  | zero => rfl
  | succ n ih =>
    rw [List.ofFn_succ, List.ofFn_succ, enumerate, ih]
    congr 2
    funext i
    congr 1
    simp only [Fin.val_succ]
    omega

/-- The candidates in another order are the candidates at other places. -/
theorem moved_enumerate (candidates : List (List Ty)) (order : Equiv.Perm (Fin candidates.length)) :
    Moved (placeOf order) (enumerate 0 (permuted candidates order)) (enumerate 0 candidates) := by
  let candidate (i : Fin candidates.length) : Candidate := ⟨i, candidates[i]⟩
  have listed : enumerate 0 candidates = List.ofFn candidate := by
    have := enumerate_ofFn 0 fun i : Fin candidates.length => candidates[i]
    simp only [Nat.zero_add] at this
    rw [← this]
    congr 1
    exact List.ofFn_getElem.symm
  have moved : (enumerate 0 (permuted candidates order)).map (Candidate.at (placeOf order))
      = List.ofFn (candidate ∘ order) := by
    unfold permuted
    rw [enumerate_ofFn, List.map_ofFn]
    congr 1
    funext i
    simp [candidate, Candidate.at, placeOf_val]
  unfold Moved
  rw [listed, moved]
  exact (order.ofFn_comp_perm candidate).symm

/-- **Overload resolution does not depend on the order of the candidates.** Resolving a call among the same candidates
in another order has the same outcome, the places of candidates renamed: the same unique candidate, coerced or not,
the same ambiguous ones, nothing that matches, or a choice that is left to the run. -/
theorem resolve_permuted (cs : Classes) (candidates : List (List Ty)) (order : Equiv.Perm (Fin candidates.length))
    (args : List Ty) (coercible : Ty → Ty → Bool) :
    (resolve cs (permuted candidates order) args coercible).Moved (placeOf order)
      (resolve cs candidates args coercible) := by
  -- every stage filters by what a candidate is and not by where it stands, so that the order stays related
  have byArity := (moved_enumerate candidates order).keeping (·.params.length = args.length) fun c => rfl
  have injective := placeOf_injective order
  have fitting := byArity.keeping
    (fun c => acceptsAll (fun p a => cs.assignable p a || a.isDynamic) c.params args) fun c => rfl
  have convertible := byArity.keeping
    (fun c => acceptsAll (fun p a => cs.assignable p a || a.isDynamic || coercible a p) c.params args) fun c => rfl
  unfold resolve
  simp only [← byArity.length_eq, byArity.isEmpty_eq, fitting.isEmpty_eq, convertible.isEmpty_eq]
  split
  · exact .noMatch
  · split
    · exact .deferred
    · split
      · exact moved_pick injective _ _ fitting
      · split
        · exact moved_pick injective _ _ convertible
        · exact .noMatch

end Overload

end HostExpr
