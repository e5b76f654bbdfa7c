import Mathlib.Data.List.Forall2
import HostExpr.Execution.Operator
import HostExpr.Proofs.Value.Entries

/-!
# Equality is an equivalence where keys are apart

Maps are equal if they have the same number of entries and the first entry of the second one with the key of an entry of
the first one has an equal value. That asks nothing of the other entries of the second map, and the keys of a map may
come to be equal when a program changes one of them. Where they are pairwise different, and no container is within
itself, equality of values is an equivalence, and equality as programs see it is symmetric.
-/

namespace HostExpr

open Relation

/-! ## Comparisons -/

/-- Among the values with a property, the comparison has an answer, which is that of an equivalence. -/
structure Comparison.EquivalenceOn (eq : Comparison) (P : Value → Prop) : Prop where
  answers {a b : Value} : P a → P b → (eq a b).isSome
  symm {a b : Value} : P a → P b → eq a b = some true → eq b a = some true
  trans {a b c : Value} : P a → P b → P c → eq a b = some true → eq b c = some true → eq a c = some true

/-- No two entries have equal keys. -/
def Comparison.Apart (eq : Comparison) (es : Entries) : Prop := es.Pairwise fun e f => eq e.1 f.1 ≠ some true

/-- Two entries have equal keys and equal values. -/
def Comparison.Matches (eq : Comparison) (e f : Value × Value) : Prop := eq e.1 f.1 = some true ∧ eq f.2 e.2 = some true

section

variable {eq : Comparison} {P : Value → Prop}

namespace Comparison.EquivalenceOn

/-- The order of two values makes no difference. -/
theorem comm (equivalence : eq.EquivalenceOn P) {a b : Value} (ha : P a) (hb : P b) : eq a b = eq b a := by
  obtain ⟨x, hx⟩ := Option.isSome_iff_exists.1 (equivalence.answers ha hb)
  obtain ⟨y, hy⟩ := Option.isSome_iff_exists.1 (equivalence.answers hb ha)
  have there := equivalence.symm ha hb
  have back := equivalence.symm hb ha
  rw [hx, hy] at there back ⊢
  cases x <;> cases y <;> simp_all

theorem mono (equivalence : eq.EquivalenceOn P) {Q : Value → Prop} (sub : ∀ v, Q v → P v) : eq.EquivalenceOn Q where
  answers ha hb := equivalence.answers (sub _ ha) (sub _ hb)
  symm ha hb := equivalence.symm (sub _ ha) (sub _ hb)
  trans ha hb hc := equivalence.trans (sub _ ha) (sub _ hb) (sub _ hc)

end Comparison.EquivalenceOn

/-! ## Lists -/

/-- Lists are equal if their items are, one by one. -/
theorem equalItems_eq_true_iff {as bs : List Value} :
    equalItems eq as bs = some true ↔ List.Forall₂ (fun a b => eq a b = some true) as bs := by
  induction as generalizing bs with
  | nil => cases bs <;> simp [equalItems]
  | cons a as ih =>
    cases bs with
    | nil => simp [equalItems]
    | cons b bs =>
      rw [equalItems, List.forall₂_cons, ← ih]
      split
      next uneven =>
        refine iff_of_false (by simp) fun h => uneven ?_
        exact (ih.1 h.2).length_eq
      next =>
        cases eq a b with
        | none => simp
        | some answer => cases answer <;> simp

theorem equalItems_symm (equivalence : eq.EquivalenceOn P) {as bs : List Value} (ha : ∀ a ∈ as, P a) (hb : ∀ b ∈ bs, P b)
    (h : equalItems eq as bs = some true) : equalItems eq bs as = some true := by
  rw [equalItems_eq_true_iff] at h ⊢
  induction h with
  | nil => exact .nil
  | cons first _ ih =>
    rw [List.forall_mem_cons] at ha hb
    exact .cons (equivalence.symm ha.1 hb.1 first) (ih ha.2 hb.2)

theorem equalItems_trans (equivalence : eq.EquivalenceOn P) {as bs cs : List Value} (ha : ∀ a ∈ as, P a)
    (hb : ∀ b ∈ bs, P b) (hc : ∀ c ∈ cs, P c) (h : equalItems eq as bs = some true)
    (h' : equalItems eq bs cs = some true) : equalItems eq as cs = some true := by
  rw [equalItems_eq_true_iff] at h h' ⊢
  induction h generalizing cs with
  | nil => exact h'
  | cons first _ ih =>
    cases h' with
    | cons second rest =>
      rw [List.forall_mem_cons] at ha hb hc
      exact .cons (equivalence.trans ha.1 hb.1 hc.1 first second) (ih ha.2 hb.2 hc.2 rest)

/-! ## Maps -/

/-- Where keys are apart, an entry whose key is equal to a given one is the first one of this kind. -/
theorem lookupEntry_of_mem (equivalence : eq.EquivalenceOn P) {key : Value} {es : Entries} {f : Value × Value}
    (hk : P key) (keys : ∀ e ∈ es, P e.1) (apart : eq.Apart es) (hf : f ∈ es) (same : eq key f.1 = some true) :
    lookupEntry eq key es = some (some f.2) := by
  induction es with
  | nil => cases hf
  | cons e es ih =>
    rw [List.forall_mem_cons] at keys
    obtain ⟨first, rest⟩ := List.pairwise_cons.1 apart
    unfold lookupEntry
    rcases List.mem_cons.1 hf with rfl | later
    · simp [same]
    · -- a key that is equal to two others would make these equal
      have other : eq key e.1 = some false := by
        obtain ⟨answer, answered⟩ := Option.isSome_iff_exists.1 (equivalence.answers hk keys.1)
        cases answer with
        | false => exact answered
        | true =>
          have back := equivalence.symm hk keys.1 answered
          exact absurd (equivalence.trans keys.1 hk (keys.2 f later) back same) (first f later)
      simp [other, ih keys.2 rest later]

/-- Maps with keys that are apart are equal if they have the same number of entries and each entry of the first one
matches one of the second one. -/
theorem equalEntries_eq_true_iff (equivalence : eq.EquivalenceOn P) {as bs : Entries} (ha : ∀ e ∈ as, P e.1)
    (hb : ∀ f ∈ bs, P f.1) (apart : eq.Apart bs) :
    equalEntries eq as bs = some true ↔ as.length = bs.length ∧ ∀ e ∈ as, ∃ f ∈ bs, eq.Matches e f := by
  -- the keys of the other map are apart, so that the entry found for a key is the only one that can match
  have within (es : Entries) (part : ∀ e ∈ es, P e.1) :
      entriesWithin eq bs es = some true ↔ ∀ e ∈ es, ∃ f ∈ bs, eq.Matches e f := by
    induction es with
    | nil => simp [entriesWithin]
    | cons e es ih =>
      rw [List.forall_mem_cons] at part ⊢
      rw [entriesWithin, ← ih part.2]
      constructor
      · intro h
        split at h
        next => cases h
        next => cases h
        next w found =>
          obtain ⟨f, hf, rfl, same⟩ := exists_of_lookupEntry found
          split at h
          next equal => exact ⟨⟨f, hf, same, equal⟩, h⟩
          next unequal => exact absurd h unequal
      · rintro ⟨⟨f, hf, same, equal⟩, rest⟩
        simp [lookupEntry_of_mem equivalence part.1 hb apart hf same, equal, rest]
  unfold equalEntries
  split
  next uneven => exact iff_of_false (by simp) fun h => uneven h.1
  next even => exact (within as ha).trans ⟨fun h => ⟨not_not.1 even, h⟩, And.right⟩

/-- If each item of one list is related to an item of another one with as many items, and no two of them to the same
one, then all items of the other list are. -/
theorem forall_exists_of_pairwise {α : Type} {R : α → α → Prop} {as bs : List α} (even : as.length = bs.length)
    (once : as.Pairwise fun a a' => ∀ b ∈ bs, R a b → ¬ R a' b) (each : ∀ a ∈ as, ∃ b ∈ bs, R a b) :
    ∀ b ∈ bs, ∃ a ∈ as, R a b := by
  induction as generalizing bs with
  | nil =>
    obtain rfl := List.length_eq_zero_iff.1 even.symm
    exact fun b hb => absurd hb List.not_mem_nil
  | cons a as ih =>
    rw [List.forall_mem_cons] at each
    obtain ⟨⟨c, hc, related⟩, each⟩ := each
    obtain ⟨first, once⟩ := List.pairwise_cons.1 once
    obtain ⟨before, after, rfl⟩ := List.append_of_mem hc
    have parts (b : α) : b ∈ before ++ c :: after ↔ b = c ∨ b ∈ before ++ after := by
      simp only [List.mem_append, List.mem_cons]
      tauto
    -- the others are related to what is left without the item that the first one is related to
    have others : ∀ b ∈ before ++ after, ∃ a ∈ as, R a b := by
      refine ih ?_ ?_ fun a' ha' => ?_
      · simp only [List.length_append, List.length_cons] at even ⊢
        omega
      · exact once.imp fun apart b hb => apart b ((parts b).2 (.inr hb))
      · obtain ⟨b, hb, related'⟩ := each a' ha'
        rcases (parts b).1 hb with rfl | rest
        · exact absurd related' (first a' ha' b hc related)
        · exact ⟨b, rest, related'⟩
    intro b hb
    rcases (parts b).1 hb with rfl | rest
    · exact ⟨a, .head _, related⟩
    · obtain ⟨a', ha', related'⟩ := others b rest
      exact ⟨a', .tail _ ha', related'⟩

section

variable {as bs cs : Entries} (equivalence : eq.EquivalenceOn P)
include equivalence

theorem equalEntries_symm (ha : ∀ e ∈ as, P e.1 ∧ P e.2) (hb : ∀ f ∈ bs, P f.1 ∧ P f.2) (apartA : eq.Apart as)
    (apartB : eq.Apart bs) (h : equalEntries eq as bs = some true) : equalEntries eq bs as = some true := by
  rw [equalEntries_eq_true_iff equivalence (fun e he => (ha e he).1) (fun f hf => (hb f hf).1) apartB] at h
  rw [equalEntries_eq_true_iff equivalence (fun f hf => (hb f hf).1) (fun e he => (ha e he).1) apartA]
  obtain ⟨even, each⟩ := h
  have once : as.Pairwise fun e e' => ∀ f ∈ bs, eq.Matches e f → ¬ eq.Matches e' f := by
    refine List.Pairwise.imp_of_mem (fun {e e'} he he' apart f hf matched matched' => apart ?_) apartA
    -- entries that match the same one have equal keys
    exact equivalence.trans (ha e he).1 (hb f hf).1 (ha e' he').1 matched.1
      (equivalence.symm (ha e' he').1 (hb f hf).1 matched'.1)
  refine ⟨even.symm, fun f hf => ?_⟩
  obtain ⟨e, he, keys, values⟩ := forall_exists_of_pairwise even once each f hf
  exact ⟨e, he, equivalence.symm (ha e he).1 (hb f hf).1 keys, equivalence.symm (hb f hf).2 (ha e he).2 values⟩

theorem equalEntries_trans (ha : ∀ e ∈ as, P e.1 ∧ P e.2) (hb : ∀ f ∈ bs, P f.1 ∧ P f.2) (hc : ∀ g ∈ cs, P g.1 ∧ P g.2)
    (apartB : eq.Apart bs) (apartC : eq.Apart cs) (h : equalEntries eq as bs = some true)
    (h' : equalEntries eq bs cs = some true) : equalEntries eq as cs = some true := by
  rw [equalEntries_eq_true_iff equivalence (fun e he => (ha e he).1) (fun f hf => (hb f hf).1) apartB] at h
  rw [equalEntries_eq_true_iff equivalence (fun f hf => (hb f hf).1) (fun g hg => (hc g hg).1) apartC] at h'
  rw [equalEntries_eq_true_iff equivalence (fun e he => (ha e he).1) (fun g hg => (hc g hg).1) apartC]
  refine ⟨h.1.trans h'.1, fun e he => ?_⟩
  obtain ⟨f, hf, keys, values⟩ := h.2 e he
  obtain ⟨g, hg, keys', values'⟩ := h'.2 f hf
  exact ⟨g, hg, equivalence.trans (ha e he).1 (hb f hf).1 (hc g hg).1 keys keys',
    equivalence.trans (hc g hg).2 (hb f hf).2 (ha e he).2 values' values⟩

end

end

/-! ## Values -/

namespace Heap

variable {heap : Heap} {v u x : Value} {n : Nat}

/-- No map within the value, or as the value itself, has two entries with equal keys. -/
def KeysApart (heap : Heap) (v : Value) : Prop :=
  ∀ m, ReflTransGen heap.Holds v (.map m) → heap.equal?.Apart (heap.entries m)

/-- The ways in which two values are equal where a comparison is given for what they hold. -/
inductive Alike (heap : Heap) (eq : Comparison) : Value → Value → Prop
  | same (v : Value) : Alike heap eq v v
  | lists {a b : Handle} (items : equalItems eq (heap.items a) (heap.items b) = some true) :
    Alike heap eq (.list a) (.list b)
  | arrays {a b : Handle} (s t : Ty) (items : a = b ∨ equalItems eq (heap.items a) (heap.items b) = some true) :
    Alike heap eq (.array a s) (.array b t)
  | maps {a b : Handle} (entries : equalEntries eq (heap.entries a) (heap.entries b) = some true) :
    Alike heap eq (.map a) (.map b)
  | objects (a : Handle) (c d : ClassRef) : Alike heap eq (.object a c) (.object a d)

theorem equalBy_eq_true_iff {eq : Comparison} : heap.equalBy eq v u = some true ↔ heap.Alike eq v u := by
  constructor
  · intro h
    -- two values of different kinds, or of a kind without parts, are compared as they are
    have plain (same : some (decide (v = u)) = some true) : heap.Alike eq v u := by
      rw [of_decide_eq_true (Option.some.inj same)]
      exact .same u
    cases v <;> cases u
    case list.list a b =>
      rw [equalBy_list] at h
      split at h
      next one => exact one ▸ .same _
      next => exact .lists h
    case array.array a s b t =>
      refine .arrays s t ?_
      change heap.equalBy eq (.list a) (.list b) = some true at h
      rw [equalBy_list] at h
      split at h
      next one => exact .inl one
      next => exact .inr h
    case map.map a b =>
      rw [equalBy_map] at h
      split at h
      next one => exact one ▸ .same _
      next => exact .maps h
    case object.object a c b d =>
      obtain rfl : a = b := of_decide_eq_true (Option.some.inj h)
      exact .objects a c d
    all_goals exact plain h
  · intro h
    cases h with
    | same => cases v <;> simp [equalBy]
    | lists items => simp [equalBy, items]
    | arrays s t items =>
      show (if _ then _ else _) = _
      split
      next => rfl
      next other => exact items.resolve_left other
    | maps entries => simp [equalBy, entries]
    | objects => simp [equalBy]

/-- Equality is an equivalence among values if it is one among what they hold, and the keys of maps are apart. -/
theorem equivalenceOn_equalBy {eq : Comparison} {P : Value → Prop} (inner : eq.EquivalenceOn P) :
    (heap.equalBy eq).EquivalenceOn fun v =>
      (∀ u ∈ heap.contents v, P u) ∧ ∀ m, v = .map m → eq.Apart (heap.entries m) where
  answers {v u} hv hu := by
    -- containers of one kind are compared by their contents, on which the inner comparison is an equivalence
    cases v <;> cases u
    case list.list a b | array.array a _ b _ =>
      show (if _ then _ else _ : Option Bool).isSome
      split
      · rfl
      · exact isSome_equalItems fun x hx y hy => inner.answers (hv.1 x hx) (hu.1 y hy)
    case map.map a b =>
      show (if _ then _ else _ : Option Bool).isSome
      split
      · rfl
      · have inV := Cell.forall_mem_values.1 hv.1
        have inU := Cell.forall_mem_values.1 hu.1
        exact isSome_equalEntries (fun e he f hf => inner.answers (inV e he).1 (inU f hf).1)
          fun e he f hf => inner.answers (inU f hf).2 (inV e he).2
    all_goals rfl
  symm hv hu h := by
    rw [equalBy_eq_true_iff] at h ⊢
    cases h with
    | same => exact .same _
    | lists items => exact .lists (equalItems_symm inner hv.1 hu.1 items)
    | arrays s t items => exact .arrays t s (items.imp Eq.symm (equalItems_symm inner hv.1 hu.1))
    | maps entries =>
      exact .maps (equalEntries_symm inner (Cell.forall_mem_values.1 hv.1) (Cell.forall_mem_values.1 hu.1) (hv.2 _ rfl)
        (hu.2 _ rfl) entries)
    | objects a c d => exact .objects a d c
  trans hv hu hx h h' := by
    rw [equalBy_eq_true_iff] at h h' ⊢
    cases h with
    | same => exact h'
    | lists items =>
      cases h' with
      | same => exact .lists items
      | lists items' => exact .lists (equalItems_trans inner hv.1 hu.1 hx.1 items items')
    | arrays s t items =>
      cases h' with
      | same => exact .arrays _ _ items
      | arrays _ _ items' =>
        refine .arrays _ _ ?_
        rcases items with rfl | items
        · exact items'
        · rcases items' with rfl | items'
          · exact .inr items
          · exact .inr (equalItems_trans inner hv.1 hu.1 hx.1 items items')
    | maps entries =>
      cases h' with
      | same => exact .maps entries
      | maps entries' =>
        exact .maps (equalEntries_trans inner (Cell.forall_mem_values.1 hv.1) (Cell.forall_mem_values.1 hu.1)
          (Cell.forall_mem_values.1 hx.1) (hu.2 _ rfl) (hx.2 _ rfl) entries entries')
    | objects a c d =>
      cases h' with
      | same => exact .objects _ _ _
      | objects _ _ _ => exact .objects _ _ _

/-- What is in a value with keys that are apart has keys that are apart. -/
theorem KeysApart.of_holds (apart : heap.KeysApart v) (hu : heap.Holds v u) : heap.KeysApart u :=
  fun m path => apart m (path.head hu)

/-- By induction on how deep containers nest: what is in a value nests less deep. -/
theorem equivalenceOn_nestsWithin (heap : Heap) (n : Nat) :
    heap.equal?.EquivalenceOn fun v => heap.NestsWithin n v ∧ heap.KeysApart v := by
  induction n with
  | zero =>
    have nothing : heap.equal?.EquivalenceOn fun _ => False := ⟨nofun, nofun, nofun⟩
    rw [equal?_eq_equalBy]
    refine (equivalenceOn_equalBy nothing).mono fun v ⟨scalar, _⟩ => ⟨fun u hu => ?_, fun m hm => ?_⟩
    · rw [contents_of_container? scalar] at hu
      cases hu
    · subst hm
      cases scalar
  | succ n ih =>
    have step : (heap.equalBy heap.equal?).EquivalenceOn _ := equivalenceOn_equalBy ih
    rw [← equal?_eq_equalBy] at step
    exact step.mono fun v ⟨nests, apart⟩ =>
      ⟨fun u hu => ⟨nests u hu, apart.of_holds hu⟩, fun m hm => apart m (hm ▸ .refl)⟩

/-- **Equality is an equivalence** among the values that hold no container that is within itself and no map with two
equal keys. -/
theorem equivalenceOn_equal? (heap : Heap) :
    heap.equal?.EquivalenceOn fun v => ¬ heap.SelfContaining v ∧ heap.KeysApart v :=
  (heap.equivalenceOn_nestsWithin _).mono fun _ h => ⟨nestsWithin_size h.1, h.2⟩

end Heap

/-! ## Keys that stay apart -/

section

variable {eq : Comparison} {P : Value → Prop} {key value : Value} {es es' : Entries} {old : Option Value}

/-- An entry that is put takes the place of one with an equal key, so keys stay apart. -/
theorem Comparison.Apart.putEntry (equivalence : eq.EquivalenceOn P) (hk : P key) (keys : ∀ e ∈ es, P e.1)
    (apart : eq.Apart es) (h : putEntry eq key value es = some (es', old)) : eq.Apart es' := by
  induction es generalizing es' old with
  | nil =>
    cases h
    exact List.pairwise_singleton _ _
  | cons e es ih =>
    obtain ⟨first, rest⟩ := List.pairwise_cons.1 apart
    rw [List.forall_mem_cons] at keys
    unfold HostExpr.putEntry at h
    split at h
    next =>
      cases h
      exact List.pairwise_cons.2 ⟨first, rest⟩
    -- the key is told from those in front, and the entries behind stay apart by the induction
    next other =>
      obtain ⟨⟨later, old⟩, put, same⟩ := Option.map_eq_some_iff.1 h
      cases same
      refine List.pairwise_cons.2 ⟨fun f hf same => ?_, ih keys.2 rest put⟩
      obtain here | ⟨e', he', here⟩ := key_of_mem_putEntry put hf
      · -- the key that was put is not equal to that of the entry before
        rw [here] at same
        rw [equivalence.comm hk keys.1, same] at other
        cases other
      · exact first e' he' (here ▸ same)
    next => cases h

end

namespace Heap

variable {heap : Heap} {h : Handle} {cell : Cell}

/-- No map has two entries with equal keys. -/
def AllKeysApart (heap : Heap) : Prop := ∀ m, heap.equal?.Apart (heap.entries m)

/-- No key of a map reaches the cell. -/
def NoKeyReaches (heap : Heap) (h : Handle) : Prop := ∀ m, ∀ e ∈ heap.entries m, ¬ heap.Reaches e.1 h

/-- Keys that do not reach a cell stay apart when it is given new contents. -/
theorem apart_put {es : Entries} (apart : heap.equal?.Apart es) (out : ∀ e ∈ es, ¬ heap.Reaches e.1 h) :
    (heap.put h cell).equal?.Apart es := by
  refine List.Pairwise.imp_of_mem (fun {e f} he hf other => ?_) apart
  rwa [equal?_put (out e he) (out f hf)]

/-- A program makes keys equal only by changing what a key reaches: otherwise the keys of all maps stay apart where
those of the new contents of a cell are. -/
theorem AllKeysApart.put (apart : heap.AllKeysApart) (unreached : heap.NoKeyReaches h)
    (new : ∀ es, cell = .entries es → heap.equal?.Apart es ∧ ∀ e ∈ es, ¬ heap.Reaches e.1 h) :
    (heap.put h cell).AllKeysApart := by
  intro m
  -- only the cell that is put has new keys; those of other maps are compared as before
  by_cases here : m = h
  · subst here
    by_cases inside : m < heap.size
    · cases cell with
      | items vs =>
        have none : (heap.put m (.items vs)).entries m = [] := by
          have there : m < heap.cells.size := inside
          simp [Heap.put, Heap.entries, there]
        rw [none]
        exact List.Pairwise.nil
      | entries es =>
        rw [entries_put_self inside]
        exact apart_put (new es rfl).1 (new es rfl).2
    · have none : (heap.put m cell).entries m = [] := by
        have out : heap.cells.size ≤ m := Nat.not_lt.1 inside
        simp [Heap.put, Heap.entries, out]
      rw [none]
      exact List.Pairwise.nil
  · rw [entries_put_of_ne here]
    exact apart_put (apart m) (unreached m)

end Heap

/-! ## Equality as programs see it -/

/-- To compare floating-point numbers the other way round gives the opposite order. -/
theorem compare_floats_swap (a b : Float.Model.UnpackedFloat) : b.compare a = (a.compare b).map Ordering.swap := by
  cases a with
  | notANumber => cases b <;> rfl
  | infinity s =>
    cases b with
    | infinity t => cases s <;> cases t <;> rfl
    | _ => cases s <;> rfl
  | zero s =>
    cases b with
    | infinity t => cases t <;> rfl
    | finite t _ _ _ => cases t <;> rfl
    | _ => rfl
  | finite s m e _ =>
    cases b with
    | infinity t => cases s <;> cases t <;> rfl
    | finite t m' e' _ =>
      have order : (compare e' e).then (compare m' m) = ((compare e e').then (compare m m')).swap := by
        rw [Ordering.swap_then, Int.compare_swap, Nat.compare_swap]
      cases s <;> cases t
      case positive.positive => exact congrArg some order
      case negative.negative => exact congrArg (some ∘ Ordering.swap) order
      all_goals rfl
    | zero t => cases s <;> rfl
    | notANumber => cases s <;> rfl

theorem floats_beq_comm (l r : Float) : (l == r) = (r == l) := by
  show (l.toModel.unpack.compare r.toModel.unpack == some .eq) = (r.toModel.unpack.compare l.toModel.unpack == some .eq)
  rw [compare_floats_swap]
  cases r.toModel.unpack.compare l.toModel.unpack with
  | none => rfl
  | some o => cases o <;> rfl

/-- Numbers are worth the same in either order. -/
theorem equalNumbers?_comm (v u : Value) : equalNumbers? v u = equalNumbers? u v := by
  cases v <;> cases u <;> simp [equalNumbers?, Value.toInt64?, Value.toFloat?, floats_beq_comm, eq_comm]

/-- Equality as programs see it is symmetric where equality of values is. -/
theorem World.looseEqual_comm (w : World) {s : Store} {v u : Value} (comm : s.heap.equal? v u = s.heap.equal? u v) :
    w.looseEqual v u s = w.looseEqual u v s := by
  have equal : Act.equal v u s = Act.equal u v s := by
    show Act.ofAnswer (s.heap.equal? v u) s = Act.ofAnswer (s.heap.equal? u v) s
    rw [comm]
  unfold World.looseEqual
  rw [equalNumbers?_comm v u]
  cases equalNumbers? u v with
  | some answer => rfl
  | none => cases v <;> cases u <;> first | rfl | exact equal

/-- **Equality is symmetric where the keys of maps are apart.** Two values that hold no container that is within itself
and no map with two equal keys are compared alike in either order, as values and as programs see them. And keys that are
apart stay so when a value is put under a key, and when items or slots change, unless a key reaches what is changed. -/
theorem World.looseEqual_symm (w : World) (s : Store) :
    (∀ v u, ¬ s.heap.SelfContaining v ∧ s.heap.KeysApart v → ¬ s.heap.SelfContaining u ∧ s.heap.KeysApart u →
      (∃ answer, s.heap.equal? v u = some answer ∧ s.heap.equal? u v = some answer)
        ∧ w.looseEqual v u s = w.looseEqual u v s)
    ∧ (s.heap.AllKeysApart → ∀ h, s.heap.NoKeyReaches h →
      (∀ vs, (s.heap.put h (.items vs)).AllKeysApart)
        ∧ ∀ key value old s', s.heap.Grounded → ¬ s.heap.Reaches key h →
          Act.mapPut h key value s = (.ok old, s') → s'.heap.AllKeysApart) := by
  -- values without cycles, whose maps keep their keys apart, are compared by an equivalence
  have equivalence := s.heap.equivalenceOn_equal?
  refine ⟨fun v u hv hu => ?_, fun apart h unreached => ⟨fun vs => ?_, fun key value old s' grounded out put => ?_⟩⟩
  · have comm := equivalence.comm hv hu
    obtain ⟨answer, answered⟩ := Option.isSome_iff_exists.1 (equivalence.answers hv hu)
    exact ⟨⟨answer, answered, comm ▸ answered⟩, w.looseEqual_comm comm⟩
  · exact apart.put unreached nofun
  · have plain (v : Value) : ¬ s.heap.SelfContaining v ∧ s.heap.KeysApart v := ⟨grounded v, fun m _ => apart m⟩
    obtain ⟨es, answered, rfl⟩ := Act.of_mapPut_ok put
    refine apart.put unreached fun es' same => ?_
    cases same
    refine ⟨(apart h).putEntry equivalence (plain key) (fun e _ => plain e.1) answered, fun e he => ?_⟩
    obtain here | ⟨e', he', here⟩ := key_of_mem_putEntry answered he
    · exact here ▸ out
    · exact here ▸ unreached h e' he'

/-- Two maps with a list among their keys are equal whatever the order of their entries, and their keys stay apart when a
list that is no key is emptied. -/
theorem World.looseEqual_symm_maps :
    let heap : Heap := ⟨#[.items [.int 1], .entries [(.list 0, .str "a"), (.int 2, .list 4)], .items [.int 1],
      .entries [(.int 2, .list 4), (.list 2, .str "a")], .items [.null]]⟩
    let s : Store := .ofHeap heap
    heap.equal? (.map 1) (.map 3) = some true
      ∧ World.bare.looseEqual (.map 1) (.map 3) s = World.bare.looseEqual (.map 3) (.map 1) s
      ∧ (heap.put 4 (.items [])).AllKeysApart := by
  intro heap s
  have apart : heap.AllKeysApart := by
    rintro (_ | _ | _ | _ | _ | m)
    case succ.succ.succ.succ.succ => exact List.Pairwise.nil
    all_goals
      show List.Pairwise _ _
      decide +kernel
  have plain (m : Handle) (hm : heap.NestsWithin 2 (.map m)) : ¬ heap.SelfContaining (.map m) ∧ heap.KeysApart (.map m) :=
    ⟨hm.not_selfContaining, fun k _ => apart k⟩
  have keys : ∀ m, ∀ e ∈ heap.entries m, e.1 ∈ [.list 0, .list 2, .int 2, .int 1] := by
    rintro (_ | _ | _ | _ | _ | m)
    case succ.succ.succ.succ.succ => exact fun e (he : e ∈ []) => absurd he List.not_mem_nil
    all_goals decide +kernel
  have unreached : heap.NoKeyReaches 4 := by
    rintro m e he ⟨u, path, hu⟩
    have closed : ∀ v ∈ [.list 0, .list 2, .int 2, .int 1], heap.contents v ⊆ [.list 0, .list 2, .int 2, .int 1] := by
      decide +kernel
    have away : ∀ v ∈ ([.list 0, .list 2, .int 2, .int 1] : List Value), v.container? ≠ some 4 := by decide +kernel
    exact away u (Heap.mem_of_closed closed (keys m e he) path) hu
  obtain ⟨symm, keep⟩ := World.bare.looseEqual_symm s
  obtain ⟨-, alike⟩ := symm (.map 1) (.map 3) (plain 1 (by decide +kernel)) (plain 3 (by decide +kernel))
  have equal : heap.equal? (.map 1) (.map 3) = some true := by decide +kernel
  refine ⟨equal, ?_, ?_⟩
  · exact alike
  · exact (keep apart 4 unreached).1 []

/-- With two equal keys in the one map, equality depends on the order. -/
example :
    let heap : Heap := ⟨#[.items [.int 1], .items [.int 1], .items [.int 2],
      .entries [(.list 0, .int 0), (.list 1, .int 0)], .entries [(.list 0, .int 0), (.list 2, .int 5)]]⟩
    heap.equal? (.map 3) (.map 4) = some true ∧ heap.equal? (.map 4) (.map 3) = some false := by
  decide +kernel

end HostExpr
