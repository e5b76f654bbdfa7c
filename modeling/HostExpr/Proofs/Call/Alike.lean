import HostExpr.Proofs.Call.Choice
import HostExpr.Proofs.Site.Selection

/-!
# What a choice depends on

Overload resolution looks at candidates that take as many arguments as there are, and at arguments only through the
parameters that accept them. So an analysis, which knows type arguments, and a run, which does not, choose alike where
these do not tell candidates or arguments apart.
-/

namespace HostExpr

namespace Overload

variable {cs : Classes} {candidates : List (List Ty)} {args args' : List Ty} {coercible : Ty → Ty → Bool}

/-- The candidates that take a number of arguments, each with its place. -/
def byArity (candidates : List (List Ty)) (n : Nat) : List Candidate :=
  (enumerate 0 candidates).filter (·.params.length = n)

/-- Arguments are accepted one by one. -/
theorem acceptsAll_iff {fits : Ty → Ty → Bool} {params : List Ty} :
    acceptsAll fits params args
      ↔ ∀ (k : Nat) p t, params[k]? = some p → args[k]? = some t → fits p t := by
  unfold acceptsAll
  induction params generalizing args with
  | nil => simp
  | cons p params ih =>
    cases args with
    | nil => simp
    | cons t args =>
      rw [List.zip_cons_cons, List.all_cons, Bool.and_eq_true, ih]
      constructor
      · rintro ⟨first, rest⟩ (_ | k) q u hq hu
        · cases hq
          cases hu
          exact first
        · exact rest k q u hq hu
      · intro h
        exact ⟨h 0 p t rfl rfl, fun k q u hq hu => h (k + 1) q u hq hu⟩

/-- Parameters that treat arguments alike one by one treat all of them alike. -/
theorem acceptsAll_congr {fits : Ty → Ty → Bool} {params : List Ty} (hl : args'.length = args.length)
    (h : ∀ (k : Nat) p t t', params[k]? = some p → args[k]? = some t → args'[k]? = some t' → fits p t' = fits p t) :
    acceptsAll fits params args' = acceptsAll fits params args := by
  unfold acceptsAll
  induction params generalizing args args' with
  | nil => simp
  | cons p params ih =>
    match args, args', hl with
    | [], [], _ => rfl
    | t :: ts, t' :: ts', hl =>
      have first : fits p t' = fits p t := h 0 p t t' rfl rfl rfl
      have rest := ih (Nat.succ.inj hl) fun k q u u' hq hu hu' => h (k + 1) q u u' hq hu hu'
      simp only [List.zip_cons_cons, List.all_cons, first, rest]

/-- A choice depends on the candidates only as far as they take the arguments, and on the arguments only as far as
these candidates tell them apart. -/
theorem resolve_congr {candidates' : List (List Ty)} (hl : args'.length = args.length)
    (hc : byArity candidates' args.length = byArity candidates args.length)
    (hd : args'.any Ty.isDynamic = args.any Ty.isDynamic)
    (ha : ∀ c ∈ byArity candidates args.length, ∀ (k : Nat) p t t', c.params[k]? = some p → args[k]? = some t →
      args'[k]? = some t' → (cs.assignable p t' || t'.isDynamic) = (cs.assignable p t || t.isDynamic)
        ∧ coercible t' p = coercible t p) :
    resolve cs candidates' args' coercible = resolve cs candidates args coercible := by
  unfold byArity at hc ha
  have asIs : ((enumerate 0 candidates).filter (·.params.length = args.length)).filter
        (acceptsAll (fun p a => cs.assignable p a || a.isDynamic) ·.params args')
      = ((enumerate 0 candidates).filter (·.params.length = args.length)).filter
        (acceptsAll (fun p a => cs.assignable p a || a.isDynamic) ·.params args) := by
    refine List.filter_congr fun c hc => acceptsAll_congr hl fun k p t t' hp ht ht' => ?_
    exact (ha c hc k p t t' hp ht ht').1
  have coerced : ((enumerate 0 candidates).filter (·.params.length = args.length)).filter
        (acceptsAll (fun p a => cs.assignable p a || a.isDynamic || coercible a p) ·.params args')
      = ((enumerate 0 candidates).filter (·.params.length = args.length)).filter
        (acceptsAll (fun p a => cs.assignable p a || a.isDynamic || coercible a p) ·.params args) := by
    refine List.filter_congr fun c hc => acceptsAll_congr hl fun k p t t' hp ht ht' => ?_
    obtain ⟨fits, converts⟩ := ha c hc k p t t' hp ht ht'
    rw [fits, converts]
  -- beyond the two filters the arguments are asked for their number, and whether one of them is unknown
  unfold resolve
  simp only [hl, hc, hd, asIs, coerced]

/-- Candidates that are seen alike where they take the arguments are the same ones for them. -/
theorem byArity_map_congr {f g : Method → List Ty} (hf : ∀ m, (f m).length = m.arity)
    (hg : ∀ m, (g m).length = m.arity) {methods : List Method} {n : Nat}
    (h : ∀ m ∈ methods, m.arity = n → g m = f m) : byArity (methods.map g) n = byArity (methods.map f) n := by
  unfold byArity
  generalize 0 = start
  induction methods generalizing start with
  | nil => rfl
  | cons m methods ih =>
    have rest := ih (fun m hm => h m (List.mem_cons_of_mem _ hm)) (start + 1)
    by_cases hm : m.arity = n
    · simp [enumerate, hf, hm, rest, h m List.mem_cons_self hm]
    · simp [enumerate, hf, hg, hm, rest]

end Overload

end HostExpr
