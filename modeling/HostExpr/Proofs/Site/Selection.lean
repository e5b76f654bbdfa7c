import HostExpr.Proofs.Site.Conformance

/-!
# Choosing the only candidate

A method that is the only one of its name for a number of arguments is what overload resolution chooses whenever
the arguments can be coerced to its parameters, in particular whenever they satisfy them.
-/

namespace HostExpr

namespace Overload

variable {f : Method → List Ty} {candidates : List Method} {n : Nat}

/-- If no candidate takes a number of arguments, none is left. -/
theorem filter_enumerate_eq_nil (hf : ∀ m, (f m).length = m.arity)
    (h : candidates.filter (·.arity = n) = []) (start : Nat) :
    (enumerate start (candidates.map f)).filter (·.params.length = n) = [] := by
  induction candidates generalizing start with
  | nil => rfl
  | cons c candidates ih =>
    rw [List.filter_eq_nil_iff] at h
    have hc : c.arity ≠ n := by simpa using h c List.mem_cons_self
    have rest : candidates.filter (·.arity = n) = [] := by
      rw [List.filter_eq_nil_iff]
      intro m hm
      exact h m (List.mem_cons_of_mem _ hm)
    simp [enumerate, hf, hc, ih rest]

/-- The only candidate that takes a number of arguments is left, with its place. -/
theorem filter_enumerate_eq_singleton (hf : ∀ m, (f m).length = m.arity) {m : Method}
    (h : candidates.filter (·.arity = n) = [m]) (start : Nat) :
    ∃ i, candidates[i]? = some m
      ∧ (enumerate start (candidates.map f)).filter (·.params.length = n) = [⟨start + i, f m⟩] := by
  induction candidates generalizing start with
  | nil => cases h
  | cons c candidates ih =>
    by_cases hc : c.arity = n
    · -- the first is the only one, and the rest has none
      simp only [hc, decide_true, List.filter_cons_of_pos, List.cons.injEq] at h
      obtain ⟨rfl, rest⟩ := h
      refine ⟨0, rfl, ?_⟩
      simp [enumerate, hf, hc, filter_enumerate_eq_nil hf rest]
    · simp only [hc, decide_false, Bool.false_eq_true, not_false_eq_true, List.filter_cons_of_neg] at h
      obtain ⟨i, hi, rest⟩ := ih h (start + 1)
      refine ⟨i + 1, by simpa using hi, ?_⟩
      have : start + (i + 1) = start + 1 + i := by omega
      simp [enumerate, hf, hc, rest, this]

/-- An argument is accepted by a parameter, with or without a conversion. -/
def accepts (cs : Classes) (coercible : Ty → Ty → Bool) (param arg : Ty) : Bool :=
  cs.assignable param arg || arg.isDynamic || coercible arg param

/-- A candidate that is the only one for the number of arguments is chosen if it accepts them. -/
theorem resolve_eq_unique_of_accepts (cs : Classes) {params : List (List Ty)} {args : List Ty}
    {coercible : Ty → Ty → Bool} {only : Candidate}
    (h : (enumerate 0 params).filter (·.params.length = args.length) = [only])
    (ha : acceptsAll (accepts cs coercible) only.params args) :
    ∃ coerced, resolve cs params args coercible = .unique only.index coerced := by
  unfold resolve
  simp only [h, List.isEmpty_cons, List.length_singleton, Nat.lt_irrefl, decide_false, Bool.and_false,
    Bool.false_eq_true, if_false]
  by_cases hfit : acceptsAll (fun p a => cs.assignable p a || a.isDynamic) only.params args
  · exact ⟨false, by simp [hfit, pick]⟩
  · have hconv : acceptsAll (fun p a => cs.assignable p a || a.isDynamic || coercible a p) only.params args := ha
    exact ⟨true, by simp [hfit, hconv, pick]⟩

/-- In particular it is chosen if the arguments can be coerced to its parameters. -/
theorem resolve_eq_unique (cs : Classes) {params : List (List Ty)} {args : List Ty}
    {coercible : Ty → Ty → Bool} {only : Candidate}
    (h : (enumerate 0 params).filter (·.params.length = args.length) = [only])
    (hc : acceptsAll (fun p a => coercible a p) only.params args) :
    ∃ coerced, resolve cs params args coercible = .unique only.index coerced := by
  refine resolve_eq_unique_of_accepts cs h ?_
  unfold acceptsAll at hc ⊢
  rw [List.all_eq_true] at hc ⊢
  intro pair hp
  simp [accepts, hc pair hp]

end Overload

namespace World

variable {w : World}

/-- The types of arguments that satisfy their parameters can be coerced to them. -/
theorem acceptsAll_of_satisfiesAll {params : List Ty} {args : List Value}
    (h : w.classes.satisfiesAll args params) :
    Overload.acceptsAll (fun p a => w.canCoerce a p) params (args.map Value.runtimeType) := by
  unfold Overload.acceptsAll
  unfold Classes.satisfiesAll at h
  induction args generalizing params with
  | nil => simp
  | cons arg args ih =>
    cases params with
    | nil => rfl
    | cons param params =>
      simp only [List.zip_cons_cons, List.all_cons, Bool.and_eq_true] at h
      simp only [List.map_cons, List.zip_cons_cons, List.all_cons, Bool.and_eq_true]
      exact ⟨canCoerce_of_satisfies h.1, ih h.2⟩

/-- A method that is the only one for the number of arguments is selected if the arguments satisfy its
parameters. -/
theorem select?_eq_of_unique {candidates : List Method} {owner : Ty} {args : List Value} {m : Method}
    (h : candidates.filter (·.arity = args.length) = [m])
    (hs : w.classes.satisfiesAll args (w.classes.paramTypes owner m)) :
    w.select? candidates owner args = some (m, w.classes.paramTypes owner m) := by
  have hf : ∀ m : Method, (w.classes.paramTypes owner m).length = m.arity := by
    intro m
    simp [Classes.paramTypes, Method.arity]
  obtain ⟨i, hi, only⟩ := Overload.filter_enumerate_eq_singleton hf h 0
  rw [Nat.zero_add] at only
  have only' : (Overload.enumerate 0 (candidates.map (w.classes.paramTypes owner))).filter
      (·.params.length = (args.map Value.runtimeType).length) = [⟨i, w.classes.paramTypes owner m⟩] := by
    rw [List.length_map]
    exact only
  obtain ⟨coerced, chosen⟩ := Overload.resolve_eq_unique w.classes only' (acceptsAll_of_satisfiesAll hs)
  unfold select?
  simp [chosen, hi]

end World

end HostExpr
