import HostExpr.Proofs.Scope.Static

/-!
# Scopes with other contents

Tables and scopes that hold other things under the same names. All operations on scopes go through: what is found,
declared or assigned in the one is found, declared or assigned in the other.
-/

namespace HostExpr

variable {α β : Type} (f : α → β)

namespace Table

/-- Other things under the same names. -/
def mapped (t : Table α) : Table β := t.map fun (n, a) => (n, f a)

theorem mapped_cons (n : String) (a : α) (rest : Table α) :
    mapped f ((n, a) :: rest) = (n, f a) :: mapped f rest := rfl

/-- What a name stands for in the other table. -/
@[simp]
theorem get?_mapped (t : Table α) (name : String) : (mapped f t).get? name = (t.get? name).map f := by
  induction t with
  | nil => rfl
  | cons entry rest ih =>
    obtain ⟨n, a⟩ := entry
    rw [mapped_cons, get?_cons, get?_cons, ih]
    split <;> rfl

/-- The other table has the same names. -/
@[simp]
theorem has_mapped (t : Table α) (name : String) : (mapped f t).has name = t.has name := by
  simp [has]

/-- What is put into the one table is put into the other. -/
theorem mapped_put (t : Table α) (name : String) (a : α) :
    mapped f (t.put name a) = (mapped f t).put name (f a) := by
  induction t with
  | nil => rfl
  | cons entry rest ih =>
    obtain ⟨n, b⟩ := entry
    simp only [put, mapped_cons]
    split
    · rfl
    · rw [mapped_cons, ih]

/-- Putting what is there already changes nothing. -/
theorem put_of_get? {t : Table α} {name : String} {a : α} (h : t.get? name = some a) : t.put name a = t := by
  induction t with
  | nil => cases h
  | cons entry rest ih =>
    obtain ⟨n, b⟩ := entry
    rw [get?_cons] at h
    by_cases hn : name = n
    · rw [if_pos hn] at h
      cases h
      rw [put, if_pos hn.symm, hn]
    · rw [if_neg hn] at h
      rw [put, if_neg (fun he => hn he.symm), ih h]

end Table

namespace Scopes

/-- Other things under the same names. -/
def map (s : Scopes α) : Scopes β := ⟨s.frames.map (Table.mapped f)⟩

@[simp]
theorem map_push (s : Scopes α) : s.push.map f = (s.map f).push := rfl

@[simp]
theorem map_popped (s : Scopes α) : s.popped.map f = (s.map f).popped := by
  match s with
  | ⟨[]⟩ => rfl
  | ⟨frame :: rest⟩ => rfl

@[simp]
theorem isEmpty_map (s : Scopes α) : (s.map f).isEmpty = s.isEmpty := by
  match s with
  | ⟨[]⟩ => rfl
  | ⟨frame :: rest⟩ => rfl

/-- What is declared in the one is declared in the other. -/
theorem map_declaring (s : Scopes α) (name : String) (a : α) :
    (s.declaring name a).map f = (s.map f).declaring name (f a) := by
  match s with
  | ⟨[]⟩ => rfl
  | ⟨frame :: rest⟩ =>
    simp only [declaring, map, List.map_cons, Table.mapped_put]

/-- What a name means in the other scopes. -/
@[simp]
theorem lookup_map (s : Scopes α) (name : String) : (s.map f).lookup name = (s.lookup name).map f := by
  obtain ⟨frames⟩ := s
  induction frames with
  | nil => rfl
  | cons frame rest ih =>
    simp only [lookup, map, List.map_cons, List.findSome?_cons, Table.get?_mapped] at ih ⊢
    cases frame.get? name with
    | some a => rfl
    | none => exact ih

/-- What is assigned in the one is assigned in the other. -/
theorem assign?_map (s : Scopes α) (name : String) (a : α) :
    (s.map f).assign? name (f a) = (s.assign? name a).map (map f) := by
  obtain ⟨frames⟩ := s
  have frames_eq : assignIn name (f a) (frames.map (Table.mapped f))
      = (assignIn name a frames).map (List.map (Table.mapped f)) := by
    induction frames with
    | nil => rfl
    | cons frame rest ih =>
      simp only [assignIn, List.map_cons, Table.has_mapped, ih]
      cases frame.has name with
      | true => simp [Table.mapped_put]
      | false => cases assignIn name a rest <;> rfl
  simp only [assign?, map, frames_eq, Option.map_map]
  rfl

/-- Something is in the other scopes if it comes from something in the one. -/
theorem has_map_of_has {s : Scopes α} {a : α} (h : s.Has a) : (s.map f).Has (f a) := by
  obtain ⟨frame, hf, name, hn⟩ := h
  exact ⟨_, List.mem_map_of_mem hf, name, List.mem_map.2 ⟨(name, a), hn, rfl⟩⟩

/-- Assigning what a name means already changes nothing. -/
theorem assign?_of_lookup {s : Scopes α} {name : String} {a : α} (h : s.lookup name = some a) :
    s.assign? name a = some s := by
  obtain ⟨frames⟩ := s
  have frames_eq : assignIn name a frames = some frames := by
    induction frames with
    | nil => cases h
    | cons frame rest ih =>
      simp only [lookup, List.findSome?_cons] at h ih
      cases hf : frame.get? name with
      | some b =>
        have has : frame.has name = true := by simp [Table.has, hf]
        rw [hf] at h
        cases h
        rw [assignIn, if_pos has, Table.put_of_get? hf]
      | none =>
        have has : ¬ frame.has name = true := by simp [Table.has, hf]
        rw [hf] at h
        rw [assignIn, if_neg has, ih h]
        rfl
  simp [assign?, frames_eq]

/-- What is there after an assignment was assigned, or was there before. -/
theorem Has.of_assign? {s s' : Scopes α} {name : String} {a b : α} (h : s.assign? name a = some s')
    (hb : s'.Has b) : b = a ∨ s.Has b := by
  obtain ⟨frames⟩ := s
  obtain ⟨frames', hf, rfl⟩ := Option.map_eq_some_iff.1 h
  clear h
  induction frames generalizing frames' with
  | nil => cases hf
  | cons frame rest ih =>
    simp only [assignIn] at hf
    obtain ⟨g, hg, n, hn⟩ := hb
    split at hf
    · cases hf
      rcases List.mem_cons.1 hg with rfl | hg
      · rcases Table.mem_put hn with rfl | hm
        · exact Or.inl rfl
        · exact Or.inr ⟨frame, List.mem_cons_self, n, hm⟩
      · exact Or.inr ⟨g, List.mem_cons_of_mem _ hg, n, hn⟩
    · obtain ⟨rest', hr, rfl⟩ := Option.map_eq_some_iff.1 hf
      rcases List.mem_cons.1 hg with rfl | hg
      · exact Or.inr ⟨g, List.mem_cons_self, n, hn⟩
      · rcases ih rest' hr ⟨g, hg, n, hn⟩ with rfl | ⟨g', hg', n', hn'⟩
        · exact Or.inl rfl
        · exact Or.inr ⟨g', List.mem_cons_of_mem _ hg', n', hn'⟩

end Scopes

end HostExpr
