import HostExpr.Proofs.Value.Equality
import HostExpr.Value.Container

/-!
# Entries of maps

A value that was put under a key is found under it: `lookupEntry_of_putEntry`. In a heap the lookup comes after the
change, which may make keys equal that were not, or unequal. It makes no difference to a key that is no container, and
none where nothing of what is compared reaches the map: `Heap.Locates`.
-/

namespace HostExpr

/-! ## Lists of entries -/

section

variable {eq : Comparison} {key value : Value} {es es' : Entries} {old : Option Value}

/-- The keys after an entry was put are those that were there, and the new one. -/
theorem key_of_mem_putEntry (h : putEntry eq key value es = some (es', old)) {f : Value × Value} (hf : f ∈ es') :
    f.1 = key ∨ ∃ e ∈ es, e.1 = f.1 := by
  induction es generalizing es' old with
  | nil =>
    cases h
    exact .inl (List.mem_singleton.1 hf ▸ rfl)
  | cons e es ih =>
    unfold putEntry at h
    split at h
    next =>
      cases h
      rcases List.mem_cons.1 hf with rfl | rest
      · exact .inr ⟨e, .head _, rfl⟩
      · exact .inr ⟨f, .tail _ rest, rfl⟩
    next =>
      obtain ⟨⟨rest, old⟩, put, same⟩ := Option.map_eq_some_iff.1 h
      cases same
      rcases List.mem_cons.1 hf with rfl | inside
      · exact .inr ⟨e, .head _, rfl⟩
      · exact (ih put inside).imp_right fun ⟨e, he, same⟩ => ⟨e, .tail _ he, same⟩
    next => cases h

/-- What was put under a key is found under it, if the key is equal to itself. -/
theorem lookupEntry_of_putEntry (self : eq key key = some true) (h : putEntry eq key value es = some (es', old)) :
    lookupEntry eq key es' = some (some value) := by
  induction es generalizing es' old with
  | nil =>
    cases h
    simp [lookupEntry, self]
  | cons e es ih =>
    unfold putEntry at h
    split at h
    next same =>
      cases h
      simp [lookupEntry, same]
    next other =>
      obtain ⟨⟨rest, old⟩, put, same⟩ := Option.map_eq_some_iff.1 h
      cases same
      simp [lookupEntry, other, ih put]
    next => cases h

end

/-! ## Maps in a heap -/

namespace Heap

variable {heap : Heap} {v u key value : Value} {h : Handle} {cell : Cell}

/-- A value is equal to itself, a container because it is the same one. -/
theorem equal?_self (heap : Heap) (v : Value) : heap.equal? v v = some true := by
  rw [equal?_eq_equalBy]
  cases v <;> simp [equalBy]

/-- What is in containers makes no difference to a value that is none. -/
theorem equal?_of_container? (scalar : v.container? = none) (heap' : Heap) : heap'.equal? v u = heap.equal? v u := by
  rw [equal?_eq_equalBy heap', equal?_eq_equalBy heap]
  cases v with
  | list _ | array _ _ | map _ => cases scalar
  | _ => cases u <;> rfl

/-- What reaches a cell reached it before its contents were replaced. -/
theorem reaches_of_put (reaches : heap.Reaches v h) : (heap.put h cell).Reaches v h := by
  by_contra out
  obtain ⟨u, path, hu⟩ := reaches
  have away : ¬ (heap.put h cell).Reaches u h := not_reaches_of_path (fun x hx => (contents_put hx).symm) path out
  exact away ⟨u, .refl, hu⟩

/-- A key of a map can be told from the others whatever is in the map: the map is there, and if the key is a container,
neither the key nor another one of the map has the map within itself. -/
structure Locates (heap : Heap) (h : Handle) (key : Value) : Prop where
  there : h < heap.size
  apart : key.container? ≠ none → ¬ heap.Reaches key h ∧ ∀ e ∈ heap.entries h, ¬ heap.Reaches e.1 h

/-- What was put under a key of a map is found under it. -/
theorem lookupEntry_put {es : Entries} {old : Option Value}
    (put : putEntry heap.equal? key value (heap.entries h) = some (es, old))
    (located : (heap.put h (.entries es)).Locates h key) :
    lookupEntry (heap.put h (.entries es)).equal? key ((heap.put h (.entries es)).entries h) = some (some value) := by
  have now : (heap.put h (.entries es)).entries h = es := entries_put_self (size_put heap h _ ▸ located.there) es
  have apart := located.apart
  rw [now] at apart ⊢
  refine Eq.trans (lookupEntry_congr fun e he => ?_) (lookupEntry_of_putEntry (heap.equal?_self key) put)
  by_cases scalar : key.container? = none
  · exact equal?_of_container? scalar _
  · obtain ⟨out, others⟩ := apart scalar
    exact equal?_put (mt reaches_of_put out) (mt reaches_of_put (others e he))

end Heap

namespace Act

variable {h : Handle} {key value : Value} {old : Option Value} {s s' : Store}

/-- To put a value under a key of a map changes the entries of the map and nothing else. -/
theorem of_mapPut_ok (put : mapPut h key value s = (.ok old, s')) :
    ∃ es, putEntry s.heap.equal? key value (s.heap.entries h) = some (es, old)
      ∧ s' = { s with heap := s.heap.put h (.entries es) } := by
  have step : mapPut h key value s
      = (ofAnswer (putEntry s.heap.equal? key value (s.heap.entries h)) >>= fun result => do
          setEntries h result.1
          return result.2 : Act (Option Value)) s := rfl
  rw [step] at put
  cases answered : putEntry s.heap.equal? key value (s.heap.entries h) with
  | none =>
    rw [answered] at put
    cases put
  | some result =>
    rw [answered] at put
    cases put
    exact ⟨result.1, rfl, rfl⟩

/-- What was put under a key of a map is read under it. -/
theorem mapGet?_of_mapPut (put : mapPut h key value s = (.ok old, s')) (located : s'.heap.Locates h key) :
    mapGet? h key s' = (.ok (some value), s') := by
  obtain ⟨es, entries, rfl⟩ := of_mapPut_ok put
  have step (s : Store) : mapGet? h key s = ofAnswer (lookupEntry s.heap.equal? key (s.heap.entries h)) s := rfl
  rw [step, Heap.lookupEntry_put entries located]
  rfl

end Act

end HostExpr
