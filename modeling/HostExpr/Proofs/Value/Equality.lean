import Mathlib.Data.Finset.Prod
import HostExpr.Proofs.Value.Nesting
import HostExpr.Value.Equality

/-!
# Which values can be compared

Equality of containers asks for equality of what they hold. It has an answer where one of two values holds no container
that is within itself: `isSome_equalWithin`. Whatever it has an answer for under some bound on its depth it has the same
answer for under the one that is taken, the number of pairs of cells: `equalWithin_eq_some_iff`. Under each bound there
are pairs of cells whose contents have no answer yet. A higher bound leaves fewer of them, and once it leaves the same no
bound gives any more answers.
-/

namespace HostExpr

/-! ## Contents -/

section

variable {eq : Comparison}

/-- Lists whose items can be compared can be. -/
theorem isSome_equalItems {as bs : List Value} (items : ∀ a ∈ as, ∀ b ∈ bs, (eq a b).isSome) :
    (equalItems eq as bs).isSome := by
  induction as generalizing bs with
  | nil => cases bs <;> rfl
  | cons a as ih =>
    cases bs with
    | nil => rfl
    | cons b bs =>
      have rest := ih fun x hx y hy => items x (.tail _ hx) y (.tail _ hy)
      have answered := items a (.head _) b (.head _)
      unfold equalItems
      split
      · rfl
      · split
        · exact rest
        · exact answered

/-- A key that can be compared with those of the entries can be looked up. -/
theorem isSome_lookupEntry {key : Value} {es : Entries} (keys : ∀ e ∈ es, (eq key e.1).isSome) :
    (lookupEntry eq key es).isSome := by
  induction es with
  | nil => rfl
  | cons e es ih =>
    have rest := ih fun x hx => keys x (.tail _ hx)
    have answered := keys e (.head _)
    unfold lookupEntry
    split
    · rfl
    · exact rest
    next silent => rw [silent] at answered; cases answered

/-- What is found under a key is the value of an entry whose key is equal to it. -/
theorem exists_of_lookupEntry {key w : Value} {es : Entries} (found : lookupEntry eq key es = some (some w)) :
    ∃ f ∈ es, f.2 = w ∧ eq key f.1 = some true := by
  induction es with
  | nil => cases found
  | cons e es ih =>
    unfold lookupEntry at found
    split at found
    next same =>
      cases found
      exact ⟨e, .head _, rfl, same⟩
    next =>
      obtain ⟨f, hf, rest⟩ := ih found
      exact ⟨f, .tail _ hf, rest⟩
    next => cases found

/-- Maps whose keys can be compared, and whose values can be, can be compared. -/
theorem isSome_equalEntries {as bs : Entries} (keys : ∀ a ∈ as, ∀ b ∈ bs, (eq a.1 b.1).isSome)
    (values : ∀ a ∈ as, ∀ b ∈ bs, (eq b.2 a.2).isSome) : (equalEntries eq as bs).isSome := by
  have within (es : Entries) (part : ∀ e ∈ es, e ∈ as) : (entriesWithin eq bs es).isSome := by
    induction es with
    | nil => rfl
    | cons e es ih =>
      have rest := ih fun x hx => part x (.tail _ hx)
      have looked := isSome_lookupEntry (keys e (part e (.head _)))
      unfold entriesWithin
      split
      next silent => rw [silent] at looked; cases looked
      next => rfl
      next w found =>
        obtain ⟨x, hx, rfl, -⟩ := exists_of_lookupEntry found
        -- the value that was found comes first here
        split
        · exact rest
        · exact values e (part e (.head _)) x hx
  unfold equalEntries
  split
  · rfl
  · exact within as fun _ h => h


/-! ## The same answers -/

section

variable {eq eq' : Comparison}

/-- Only how their items compare matters for lists. -/
theorem equalItems_congr {as bs : List Value} (items : ∀ a ∈ as, ∀ b ∈ bs, eq a b = eq' a b) :
    equalItems eq as bs = equalItems eq' as bs := by
  induction as generalizing bs with
  | nil => cases bs <;> rfl
  | cons a as ih =>
    cases bs with
    | nil => rfl
    | cons b bs =>
      unfold equalItems
      rw [items a (.head _) b (.head _), ih fun x hx y hy => items x (.tail _ hx) y (.tail _ hy)]

/-- Only how a key compares with those of the entries matters for what is found. -/
theorem lookupEntry_congr {key : Value} {es : Entries} (keys : ∀ e ∈ es, eq key e.1 = eq' key e.1) :
    lookupEntry eq key es = lookupEntry eq' key es := by
  induction es with
  | nil => rfl
  | cons e es ih =>
    unfold lookupEntry
    rw [keys e (.head _), ih fun x hx => keys x (.tail _ hx)]

/-- Only how their keys and their values compare matters for maps. -/
theorem equalEntries_congr {as bs : Entries} (keys : ∀ a ∈ as, ∀ b ∈ bs, eq a.1 b.1 = eq' a.1 b.1)
    (values : ∀ a ∈ as, ∀ b ∈ bs, eq b.2 a.2 = eq' b.2 a.2) : equalEntries eq as bs = equalEntries eq' as bs := by
  have within (es : Entries) (part : ∀ e ∈ es, e ∈ as) : entriesWithin eq bs es = entriesWithin eq' bs es := by
    induction es with
    | nil => rfl
    | cons e es ih =>
      unfold entriesWithin
      rw [lookupEntry_congr (keys e (part e (.head _))), ih fun x hx => part x (.tail _ hx)]
      cases looked : lookupEntry eq' e.1 bs with
      | none => rfl
      | some found =>
        cases found with
        | none => rfl
        | some w =>
          obtain ⟨x, hx, rfl, -⟩ := exists_of_lookupEntry looked
          simp only [values e (part e (.head _)) x hx]
  unfold equalEntries
  rw [within as fun _ h => h]

end

/-! ## More answers -/

/-- What the first test answers the second one answers in the same way. -/
def Comparison.Within (eq eq' : Comparison) : Prop := ∀ a b r, eq a b = some r → eq' a b = some r

variable {eq' : Comparison}

theorem equalItems_mono (within : eq.Within eq') {as bs : List Value} {r : Bool} (h : equalItems eq as bs = some r) :
    equalItems eq' as bs = some r := by
  induction as generalizing bs with
  | nil => cases bs <;> exact h
  | cons a as ih =>
    cases bs with
    | nil => exact h
    | cons b bs =>
      unfold equalItems at h ⊢
      split
      next short => rwa [if_pos short] at h
      next even =>
        rw [if_neg even] at h
        cases first : eq a b with
        | none => rw [first] at h; cases h
        | some answer =>
          rw [first] at h
          rw [within a b answer first]
          cases answer with
          | true => exact ih h
          | false => exact h

theorem lookupEntry_mono (within : eq.Within eq') {key : Value} {es : Entries} {r : Option Value}
    (h : lookupEntry eq key es = some r) : lookupEntry eq' key es = some r := by
  induction es with
  | nil => exact h
  | cons e es ih =>
    unfold lookupEntry at h ⊢
    cases first : eq key e.1 with
    | none => rw [first] at h; cases h
    | some answer =>
      rw [first] at h
      rw [within key e.1 answer first]
      cases answer with
      | true => exact h
      | false => exact ih h

theorem equalEntries_mono (within : eq.Within eq') {as bs : Entries} {r : Bool} (h : equalEntries eq as bs = some r) :
    equalEntries eq' as bs = some r := by
  -- every question that the one answers is answered alike by the other, so the search takes the same way
  have inner (es : Entries) (h : entriesWithin eq bs es = some r) : entriesWithin eq' bs es = some r := by
    induction es with
    | nil => exact h
    | cons e es ih =>
      unfold entriesWithin at h ⊢
      cases looked : lookupEntry eq e.1 bs with
      | none => rw [looked] at h; cases h
      | some found =>
        rw [looked] at h
        rw [lookupEntry_mono within looked]
        cases found with
        | none => exact h
        | some w =>
          cases first : eq w e.2 with
          | none => simp only [first] at h; cases h
          | some answer =>
            simp only [first] at h
            simp only [within w e.2 answer first]
            cases answer with
            | true => exact ih h
            | false => exact h
  unfold equalEntries at h ⊢
  split
  next short => rwa [if_pos short] at h
  next even => exact inner as (by rwa [if_neg even] at h)

end

namespace Heap

variable {heap : Heap} {v u : Value} {n : Nat}

/-- Two values can be compared under a bound if containers nest within it in one of them. -/
theorem isSome_equalWithin (h : heap.NestsWithin n v ∨ heap.NestsWithin n u) : (heap.equalWithin n v u).isSome := by
  induction n generalizing v u with
  | zero => cases v <;> cases u <;> simp_all [equalWithin, NestsWithin, Value.container?]
  | succ n ih =>
    -- one of the two values nests no deeper than the fuel, and so does each of its contents
    have inner {a b : Value} (ha : a ∈ heap.contents v) (hb : b ∈ heap.contents u) :
        heap.NestsWithin n a ∨ heap.NestsWithin n b := h.imp (· a ha) (· b hb)
    cases v <;> cases u
    case list.list a b | array.array a _ b _ =>
      unfold equalWithin
      split
      · rfl
      · exact isSome_equalItems fun x hx y hy => ih (inner hx hy)
    case map.map a b =>
      unfold equalWithin
      split
      · rfl
      · exact isSome_equalEntries
          (fun x hx y hy => ih (inner (Cell.key_mem_values hx) (Cell.key_mem_values hy)))
          fun x hx y hy => ih (inner (Cell.value_mem_values hx) (Cell.value_mem_values hy)).symm
    all_goals rfl

/-- Two lists that each hold nothing but themselves cannot be compared, however deep containers may nest. -/
theorem equalWithin_of_twins {a b : Handle} (other : a ≠ b) (ha : heap.items a = [.list a])
    (hb : heap.items b = [.list b]) : heap.equalWithin n (.list a) (.list b) = none := by
  induction n with
  | zero => simp [equalWithin, other]
  | succ n ih => simp [equalWithin, other, ha, hb, equalItems, ih]

/-! ## One level of a comparison -/

/-- Equality of values where a test is given for what they hold. -/
def equalBy (heap : Heap) (eq : Comparison) : Comparison
  | .list a, .list b => if a = b then some true else equalItems eq (heap.items a) (heap.items b)
  | .array a _, .array b _ => if a = b then some true else equalItems eq (heap.items a) (heap.items b)
  | .map a, .map b => if a = b then some true else equalEntries eq (heap.entries a) (heap.entries b)
  | .object a _, .object b _ => some (a = b)
  | v, w => some (v = w)

theorem equalWithin_succ : heap.equalWithin (n + 1) = heap.equalBy (heap.equalWithin n) := by
  funext v u
  cases v <;> cases u <;> rfl

theorem equalBy_list (eq : Comparison) (a b : Handle) : heap.equalBy eq (.list a) (.list b) =
    if a = b then some true else equalItems eq (heap.items a) (heap.items b) := rfl

theorem equalBy_map (eq : Comparison) (a b : Handle) : heap.equalBy eq (.map a) (.map b) =
    if a = b then some true else equalEntries eq (heap.entries a) (heap.entries b) := rfl

theorem equalBy_mono {eq eq' : Comparison} (within : eq.Within eq') : (heap.equalBy eq).Within (heap.equalBy eq') := by
  have lists (a b : Handle) (r : Bool) (h : heap.equalBy eq (.list a) (.list b) = some r) :
      heap.equalBy eq' (.list a) (.list b) = some r := by
    rw [equalBy_list] at h ⊢
    split
    next same => rwa [if_pos same] at h
    next other => exact equalItems_mono within (by rwa [if_neg other] at h)
  have maps (a b : Handle) (r : Bool) (h : heap.equalBy eq (.map a) (.map b) = some r) :
      heap.equalBy eq' (.map a) (.map b) = some r := by
    rw [equalBy_map] at h ⊢
    split
    next same => rwa [if_pos same] at h
    next other => exact equalEntries_mono within (by rwa [if_neg other] at h)
  intro v u r h
  cases v <;> cases u
  case list.list a b | array.array a _ b _ => exact lists a b r h
  case map.map a b => exact maps a b r h
  all_goals exact h

/-- A higher bound leaves the answers as they are. -/
theorem equalWithin_within_succ : (heap.equalWithin n).Within (heap.equalWithin (n + 1)) := by
  induction n with
  | zero =>
    intro v u r h
    cases v <;> cases u
    case list.list a b | array.array a _ b _ | map.map a b =>
      unfold equalWithin at h ⊢
      split
      next same => rwa [if_pos same] at h
      next other => rw [if_neg other] at h; cases h
    all_goals exact h
  | succ n ih =>
    rw [equalWithin_succ, equalWithin_succ]
    exact equalBy_mono ih

theorem equalWithin_mono {m : Nat} (le : n ≤ m) : (heap.equalWithin n).Within (heap.equalWithin m) := by
  induction le with
  | refl => exact fun _ _ _ h => h
  | step _ ih => exact fun v u r h => equalWithin_within_succ v u r (ih v u r h)

/-! ## Pairs of cells without an answer -/

/-- The pairs of cells whose contents, as items or as entries, have no answer under a bound. -/
def undecided (heap : Heap) (n : Nat) : Finset (Handle × Handle) :=
  (Finset.range heap.size ×ˢ Finset.range heap.size).filter fun p =>
    heap.equalWithin n (.list p.1) (.list p.2) = none ∨ heap.equalWithin n (.map p.1) (.map p.2) = none

variable {a b : Handle}

/-- Only items that are there have no answer. -/
theorem mem_items_of_undecided (h : heap.equalWithin (n + 1) (.list a) (.list b) = none) :
    (∃ x, x ∈ heap.items a) ∧ ∃ y, y ∈ heap.items b := by
  rw [equalWithin_succ, equalBy_list] at h
  split at h
  · cases h
  · generalize heap.items a = as at h
    generalize heap.items b = bs at h
    cases as with
    | nil => cases bs <;> cases h
    | cons x as =>
      cases bs with
      | nil => cases h
      | cons y bs => exact ⟨⟨x, .head _⟩, y, .head _⟩

/-- Only entries that are there have no answer. -/
theorem mem_entries_of_undecided (h : heap.equalWithin (n + 1) (.map a) (.map b) = none) :
    (∃ x, x ∈ heap.entries a) ∧ ∃ y, y ∈ heap.entries b := by
  rw [equalWithin_succ, equalBy_map] at h
  split at h
  · cases h
  · generalize heap.entries a = as at h
    generalize heap.entries b = bs at h
    cases as with
    | nil => cases bs <;> cases h
    | cons x as =>
      cases bs with
      | nil => cases h
      | cons y bs => exact ⟨⟨x, .head _⟩, y, .head _⟩

theorem mem_undecided : (a, b) ∈ heap.undecided (n + 1) ↔
    heap.equalWithin (n + 1) (.list a) (.list b) = none ∨ heap.equalWithin (n + 1) (.map a) (.map b) = none := by
  unfold undecided
  rw [Finset.mem_filter, Finset.mem_product, Finset.mem_range, Finset.mem_range]
  refine ⟨And.right, fun h => ⟨?_, h⟩⟩
  rcases h with h | h
  · obtain ⟨⟨x, hx⟩, y, hy⟩ := mem_items_of_undecided h
    exact ⟨lt_size_of_mem_items hx, lt_size_of_mem_items hy⟩
  · obtain ⟨⟨x, hx⟩, y, hy⟩ := mem_entries_of_undecided h
    exact ⟨lt_size_of_mem_entries hx, lt_size_of_mem_entries hy⟩

/-- A cell does not wait for an answer both as items and as entries. -/
theorem not_both_undecided {m : Nat} (h : heap.equalWithin (n + 1) (.list a) (.list b) = none) :
    heap.equalWithin (m + 1) (.map a) (.map b) ≠ none := by
  intro h'
  obtain ⟨⟨x, hx⟩, -⟩ := mem_items_of_undecided h
  obtain ⟨⟨e, he⟩, -⟩ := mem_entries_of_undecided h'
  rw [entries_of_mem_items hx] at he
  cases he

/-- What has no answer under a higher bound has none under a lower one. -/
theorem equalWithin_none_of_succ (h : heap.equalWithin (n + 1) v u = none) : heap.equalWithin n v u = none := by
  cases answered : heap.equalWithin n v u with
  | none => rfl
  | some r =>
    rw [equalWithin_within_succ v u r answered] at h
    cases h

theorem undecided_succ_subset : heap.undecided (n + 2) ⊆ heap.undecided (n + 1) := by
  rintro ⟨a, b⟩ h
  exact mem_undecided.2 ((mem_undecided.1 h).imp equalWithin_none_of_succ equalWithin_none_of_succ)

/-- If a higher bound leaves the same pairs without an answer, it gives the same answers. -/
theorem equalWithin_eq_of_undecided (same : heap.undecided (n + 2) = heap.undecided (n + 1)) :
    heap.equalWithin (n + 2) = heap.equalWithin (n + 1) := by
  -- what is still open with more fuel is just what was open before, so that no answer was added
  have lists (a b : Handle) (h : heap.equalWithin (n + 1) (.list a) (.list b) = none) :
      heap.equalWithin (n + 2) (.list a) (.list b) = none := by
    have still : (a, b) ∈ heap.undecided (n + 2) := same ▸ mem_undecided.2 (.inl h)
    exact (mem_undecided.1 still).resolve_right (not_both_undecided h)
  have maps (a b : Handle) (h : heap.equalWithin (n + 1) (.map a) (.map b) = none) :
      heap.equalWithin (n + 2) (.map a) (.map b) = none := by
    have still : (a, b) ∈ heap.undecided (n + 2) := same ▸ mem_undecided.2 (.inr h)
    exact (mem_undecided.1 still).resolve_left fun h' => not_both_undecided h' h
  funext v u
  cases answered : heap.equalWithin (n + 1) v u with
  | some r => exact equalWithin_within_succ v u r answered
  | none =>
    cases v <;> cases u
    case list.list a b | array.array a _ b _ => exact lists a b answered
    case map.map a b => exact maps a b answered
    all_goals cases answered

/-- A bound that gives no more answers than the one below it gives as many as any higher one. -/
theorem equalWithin_eq_of_le {m : Nat} (same : heap.equalWithin (n + 1) = heap.equalWithin n) (le : n ≤ m) :
    heap.equalWithin m = heap.equalWithin n := by
  induction le with
  | refl => rfl
  | step _ ih => rw [equalWithin_succ, ih, ← equalWithin_succ, same]

/-- Each bound gives more answers, up to one that does not. -/
theorem card_undecided (heap : Heap) (n : Nat) :
    (∃ j ≤ n, heap.undecided (j + 2) = heap.undecided (j + 1))
      ∨ (heap.undecided (n + 1)).card + n ≤ heap.size * heap.size := by
  induction n with
  | zero =>
    refine .inr ?_
    calc (heap.undecided 1).card ≤ (Finset.range heap.size ×ˢ Finset.range heap.size).card :=
          Finset.card_le_card (Finset.filter_subset _ _)
      _ = heap.size * heap.size := by rw [Finset.card_product, Finset.card_range]
  | succ n ih =>
    rcases ih with ⟨j, le, same⟩ | few
    · exact .inl ⟨j, Nat.le_succ_of_le le, same⟩
    · -- either the fuel decided another pair, or it never will
      by_cases same : heap.undecided (n + 2) = heap.undecided (n + 1)
      · exact .inl ⟨n, Nat.le_succ n, same⟩
      · have fewer : (heap.undecided (n + 2)).card < (heap.undecided (n + 1)).card :=
          Finset.card_lt_card (undecided_succ_subset.ssubset_of_ne same)
        refine .inr ?_
        show (heap.undecided (n + 2)).card + (n + 1) ≤ heap.size * heap.size
        omega

/-- Some bound up to the number of pairs of cells gives all answers that there are. -/
theorem exists_equalWithin_stable (heap : Heap) :
    ∃ n ≤ heap.size * heap.size + 1, ∀ m, n ≤ m → heap.equalWithin m = heap.equalWithin n := by
  obtain ⟨j, le, same⟩ : ∃ j ≤ heap.size * heap.size, heap.undecided (j + 2) = heap.undecided (j + 1) := by
    rcases heap.card_undecided (heap.size * heap.size) with found | few
    · exact found
    · refine ⟨_, le_rfl, ?_⟩
      have none : heap.undecided (heap.size * heap.size + 1) = ∅ := Finset.card_eq_zero.1 (by omega)
      exact undecided_succ_subset.antisymm (by rw [none]; exact Finset.empty_subset _)
  exact ⟨j + 1, by omega, fun m above => equalWithin_eq_of_le (equalWithin_eq_of_undecided same) above⟩

/-- The bound that is taken gives every answer that any bound gives. -/
theorem equalWithin_eq_some_iff {r : Bool} : (∃ n, heap.equalWithin n v u = some r) ↔ heap.equal? v u = some r := by
  refine ⟨fun ⟨n, h⟩ => ?_, fun h => ⟨_, h⟩⟩
  obtain ⟨k, le, stable⟩ := heap.exists_equalWithin_stable
  have answered := equalWithin_mono (Nat.le_max_left n k) v u r h
  rw [stable _ (Nat.le_max_right n k)] at answered
  unfold equal?
  rw [stable _ le, answered]

theorem isSome_equal?_iff : (heap.equal? v u).isSome ↔ ∃ n, (heap.equalWithin n v u).isSome := by
  simp only [Option.isSome_iff_exists, ← equalWithin_eq_some_iff]
  exact exists_comm

/-- Two values have an answer if one of them holds no container that is within itself. -/
theorem isSome_equal? (plain : ¬ heap.SelfContaining v ∨ ¬ heap.SelfContaining u) : (heap.equal? v u).isSome :=
  isSome_equal?_iff.2 ⟨_, isSome_equalWithin (plain.imp nestsWithin_size nestsWithin_size)⟩

/-- The bound that is taken leaves nothing for a further level to answer. -/
theorem equal?_eq_equalBy (heap : Heap) : heap.equal? = heap.equalBy heap.equal? := by
  obtain ⟨k, le, stable⟩ := heap.exists_equalWithin_stable
  have last : heap.equalWithin (heap.size * heap.size + 2) = heap.equalWithin (heap.size * heap.size + 1) := by
    rw [stable _ (by omega), stable _ le]
  rw [equalWithin_succ] at last
  exact last.symm

/-! ## Changes out of reach -/

/-- What is in a container that does not reach a cell does not reach it either. -/
theorem not_reaches_of_holds {h : Handle} (out : ¬ heap.Reaches v h) (hu : heap.Holds v u) : ¬ heap.Reaches u h :=
  fun ⟨x, path, hx⟩ => out ⟨x, path.head hu, hx⟩

/-- Values that do not reach a cell are compared alike after the cell was given new contents, if what they hold is. -/
theorem equalBy_put {h : Handle} {cell : Cell} {eq eq' : Comparison} (hv : ¬ heap.Reaches v h) (hu : ¬ heap.Reaches u h)
    (inner : ∀ a ∈ heap.contents v, ∀ b ∈ heap.contents u, eq' a b = eq a b ∧ eq' b a = eq b a) :
    (heap.put h cell).equalBy eq' v u = heap.equalBy eq v u := by
  -- the cell is not reached from either value, so that the comparison does not look at it
  have other {x : Value} {k : Handle} (out : ¬ heap.Reaches x h) (hk : x.container? = some k) : k ≠ h := by
    rintro rfl
    exact out ⟨x, .refl, hk⟩
  have items {a b : Handle} (ha : a ≠ h) (hb : b ≠ h)
      (inner : ∀ x ∈ heap.items a, ∀ y ∈ heap.items b, eq' x y = eq x y ∧ eq' y x = eq y x) :
      (heap.put h cell).equalBy eq' (.list a) (.list b) = heap.equalBy eq (.list a) (.list b) := by
    rw [equalBy_list, equalBy_list, items_put_of_ne ha, items_put_of_ne hb,
      equalItems_congr fun x hx y hy => (inner x hx y hy).1]
  cases v <;> cases u
  case list.list a b | array.array a _ b _ => exact items (other hv rfl) (other hu rfl) inner
  case map.map a b =>
    rw [equalBy_map, equalBy_map, entries_put_of_ne (other hv rfl), entries_put_of_ne (other hu rfl)]
    rw [equalEntries_congr
      (fun x hx y hy => (inner _ (Cell.key_mem_values hx) _ (Cell.key_mem_values hy)).1)
      fun x hx y hy => (inner _ (Cell.value_mem_values hx) _ (Cell.value_mem_values hy)).2]
  all_goals rfl

/-- What happens to a cell makes no difference to values that do not reach it. -/
theorem equalWithin_put {h : Handle} {cell : Cell} (hv : ¬ heap.Reaches v h) (hu : ¬ heap.Reaches u h) :
    (heap.put h cell).equalWithin n v u = heap.equalWithin n v u := by
  induction n generalizing v u with
  | zero => cases v <;> cases u <;> rfl
  | succ n ih =>
    rw [equalWithin_succ, equalWithin_succ]
    refine equalBy_put hv hu fun a ha b hb => ?_
    have outA := not_reaches_of_holds hv ha
    have outB := not_reaches_of_holds hu hb
    exact ⟨ih outA outB, ih outB outA⟩

theorem equal?_put {h : Handle} {cell : Cell} (hv : ¬ heap.Reaches v h) (hu : ¬ heap.Reaches u h) :
    (heap.put h cell).equal? v u = heap.equal? v u := by
  unfold equal?
  rw [size_put]
  exact equalWithin_put hv hu

end Heap

end HostExpr
