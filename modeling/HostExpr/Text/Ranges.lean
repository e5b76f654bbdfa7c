/-!
# Ranges of characters

A property of characters is given as the closed ranges of codes that have it, ascending and apart. A search may then
stop at the first range above the code, and finds what a search through all of them would find.
-/

namespace HostExpr

/-- Closed ranges of character codes, from the lowest to the highest. -/
abbrev CodeRanges := List (Nat × Nat)

namespace CodeRanges

/-- Whether a code lies in one of the ranges. -/
def has : CodeRanges → Nat → Bool
  | [], _ => false
  | (first, last) :: rest, code => first ≤ code && (code ≤ last || has rest code)

/-- Whether no range is empty and each ends before the next one begins. -/
def isAscending : CodeRanges → Bool
  | [] => true
  | [r] => r.1 ≤ r.2
  | r :: s :: rest => r.1 ≤ r.2 && r.2 < s.1 && isAscending (s :: rest)

/-- How many codes lie in the ranges. -/
def size (rs : CodeRanges) : Nat := rs.foldl (fun n r => n + (r.2 + 1 - r.1)) 0

/-! ## Laws -/

/-- Ascending ranges without the first one ascend. -/
theorem isAscending_tail {r : Nat × Nat} {rest : CodeRanges} (h : isAscending (r :: rest) = true) :
    rest.isAscending = true := by
  cases rest with
  | nil => rfl
  | cons s rest => simp_all [isAscending]

/-- The first of ascending ranges begins below all others. -/
theorem lt_of_mem_of_isAscending {r s : Nat × Nat} {rest : CodeRanges}
    (h : isAscending (r :: rest) = true) (hs : s ∈ rest) : r.1 < s.1 := by
  induction rest generalizing r with
  | nil => simp at hs
  | cons t rest ih =>
    have hrt : r.1 < t.1 := by
      simp [isAscending] at h
      omega
    rcases List.mem_cons.1 hs with rfl | hs
    · exact hrt
    · exact Nat.lt_trans hrt (ih (isAscending_tail h) hs)

/-- In ascending ranges the search finds a code exactly if some range holds it. -/
theorem has_iff {rs : CodeRanges} (h : rs.isAscending = true) (code : Nat) :
    rs.has code = true ↔ ∃ r ∈ rs, r.1 ≤ code ∧ code ≤ r.2 := by
  induction rs with
  | nil => simp [has]
  | cons r rest ih =>
    have ih := ih (isAscending_tail h)
    simp only [has, Bool.and_eq_true, Bool.or_eq_true, decide_eq_true_eq, ih, List.mem_cons,
      exists_eq_or_imp]
    constructor
    · rintro ⟨hfirst, hlast | hrest⟩
      · exact .inl ⟨hfirst, hlast⟩
      · exact .inr hrest
    · rintro (⟨hfirst, hlast⟩ | ⟨s, hs, hrange⟩)
      · exact ⟨hfirst, .inl hlast⟩
      · -- a later range holds the code, so it lies above the start of the first
        have hlt := lt_of_mem_of_isAscending h hs
        exact ⟨by omega, .inr ⟨s, hs, hrange⟩⟩

end CodeRanges

end HostExpr
