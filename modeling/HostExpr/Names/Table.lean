/-!
# Tables

Things by name. A name that is given again keeps its place: `get?_put` and `names_put` say what a table holds
after that, `get?_erase` what it holds after a name is erased.
-/

namespace HostExpr

/-- Things by name, in the order in which the names were first given. -/
abbrev Table (α : Type) := List (String × α)

namespace Table

variable {α : Type}

/-- What a name stands for. -/
def get? (t : Table α) (name : String) : Option α := t.lookup name

/-- Whether a name stands for something. -/
def has (t : Table α) (name : String) : Bool := (t.get? name).isSome

/-- Let a name stand for something. -/
def put (t : Table α) (name : String) (a : α) : Table α :=
  match t with
  | [] => [(name, a)]
  | (n, b) :: rest => if n = name then (name, a) :: rest else (n, b) :: put rest name a

/-- Let a name stand for nothing. -/
def erase (t : Table α) (name : String) : Table α := t.filter fun (n, _) => n ≠ name

/-- The names in order. -/
def names (t : Table α) : List String := t.map Prod.fst

/-- A table filled from pairs; of several for one name the last counts. -/
def ofPairs (pairs : List (String × α)) : Table α := pairs.foldl (fun t (n, a) => put t n a) []

/-! ## Laws -/

/-- The first pair counts. -/
theorem get?_cons (n : String) (b : α) (rest : Table α) (name : String) :
    get? ((n, b) :: rest) name = if name = n then some b else get? rest name := by
  by_cases h : name = n
  · simp [get?, h]
  · have h' : (name == n) = false := by simp [h]
    simp [get?, List.lookup_cons, h, h']

/-- What a name stands for after one is put. -/
@[simp]
theorem get?_put (t : Table α) (name : String) (a : α) (other : String) :
    (t.put name a).get? other = if other = name then some a else t.get? other := by
  induction t with
  | nil => simp [put, get?_cons]
  | cons entry rest ih =>
    obtain ⟨n, b⟩ := entry
    by_cases h : n = name
    · subst h
      simp only [put, if_true, get?_cons]
      split <;> rfl
    · simp only [put, if_neg h, get?_cons, ih]
      by_cases h' : other = n
      · subst h'; simp [h]
      · simp [h']

/-- A name stands for something once it is put; the others stay as they are. -/
@[simp]
theorem has_put (t : Table α) (name : String) (a : α) (other : String) :
    (t.put name a).has other = (decide (other = name) || t.has other) := by
  simp only [has, get?_put]
  by_cases h : other = name <;> simp [h]

/-- The names of a table with a pair in front. -/
theorem names_cons (n : String) (b : α) (rest : Table α) : names ((n, b) :: rest) = n :: names rest := rfl

/-- A name that is put again keeps its place, and a new one comes last. -/
theorem names_put (t : Table α) (name : String) (a : α) :
    (t.put name a).names = if name ∈ t.names then t.names else t.names ++ [name] := by
  induction t with
  | nil => simp [put, names]
  | cons entry rest ih =>
    obtain ⟨n, b⟩ := entry
    by_cases h : n = name
    · simp [put, names_cons, h]
    · have h' : name ≠ n := fun e => h e.symm
      simp only [put, if_neg h, names_cons, ih, List.mem_cons, h', false_or]
      by_cases hm : name ∈ names rest <;> simp [hm]

/-- What a name stands for after one is erased. -/
@[simp]
theorem get?_erase (t : Table α) (name other : String) :
    (t.erase name).get? other = if other = name then none else t.get? other := by
  induction t with
  | nil => simp [erase, get?]
  | cons entry rest ih =>
    obtain ⟨n, b⟩ := entry
    simp only [erase] at ih ⊢
    by_cases h : n = name
    · subst h
      simp only [ne_eq, not_true_eq_false, decide_false, Bool.false_eq_true, not_false_eq_true,
        List.filter_cons_of_neg, get?_cons, ih]
      split <;> rfl
    · simp only [ne_eq, h, not_false_eq_true, decide_true, List.filter_cons_of_pos, get?_cons, ih]
      by_cases h' : other = n
      · subst h'; simp [h]
      · simp [h']

/-- What is in a table after a name is put was put, or was there before. -/
theorem mem_put {t : Table α} {name n : String} {a b : α} (h : (n, b) ∈ t.put name a) :
    b = a ∨ (n, b) ∈ t := by
  induction t with
  | nil =>
    simp only [put, List.mem_singleton, Prod.mk.injEq] at h
    exact Or.inl h.2
  | cons entry rest ih =>
    obtain ⟨m, c⟩ := entry
    simp only [put] at h
    split at h
    · rcases List.mem_cons.1 h with he | hr
      · simp only [Prod.mk.injEq] at he
        exact Or.inl he.2
      · exact Or.inr (List.mem_cons_of_mem _ hr)
    · rcases List.mem_cons.1 h with he | hr
      · exact Or.inr (he ▸ List.mem_cons_self)
      · rcases ih hr with ha | hm
        · exact Or.inl ha
        · exact Or.inr (List.mem_cons_of_mem _ hm)

/-- What a name stands for is in the table. -/
theorem mem_of_get? {t : Table α} {name : String} {a : α} (h : t.get? name = some a) :
    (name, a) ∈ t := by
  induction t with
  | nil => cases h
  | cons entry rest ih =>
    obtain ⟨n, b⟩ := entry
    rw [get?_cons] at h
    split at h
    · rename_i hn
      cases h
      exact hn ▸ List.mem_cons_self
    · exact List.mem_cons_of_mem _ (ih h)

end Table

end HostExpr
