import HostExpr.Execution.Stmt

/-!
# What comes of the steps of a run

A step that has come to something has come to something in each of its parts.
-/

namespace HostExpr

/-- Whether a turn of a loop may still be counted. -/
def Limits.counted (l : Limits) (n : Nat) : Except Stop Unit :=
  match l.maxIterations with
  | some limit => if limit < n then .error (.iterationLimit limit) else .ok ()
  | none => .ok ()

namespace Exec

variable {α β : Type} {x : Exec α} {f : α → Exec β} {s s' : Running}

/-- Where the first step gives a value, the second one takes over. -/
theorem bind_of_ok {a : α} (h : x s = (.ok a, s')) : (x >>= f) s = f a s' := by
  show ExceptT.bindCont f (x s).1 (x s).2 = _
  rw [h]
  rfl

/-- What comes of two steps comes of the first and then of the second. -/
theorem of_bind_ok {b : β} (h : (x >>= f) s = (.ok b, s')) : ∃ a s₁, x s = (.ok a, s₁) ∧ f a s₁ = (.ok b, s') :=
  HostExpr.of_bind_ok h

theorem of_pure_ok {a b : α} (h : (pure a : Exec α) s = (.ok b, s')) : a = b ∧ s = s' := by
  cases h
  exact ⟨rfl, rfl⟩

/-- What comes of a computation on the store changes nothing but the store. -/
theorem of_act_ok {x : Act α} {a : α} (h : act x s = (.ok a, s')) :
    x s.store = (.ok a, s'.store) ∧ s' = { s with store := s'.store } := by
  unfold act at h
  split at h
  next computed =>
    cases h
    exact ⟨computed, rfl⟩
  next => cases h

theorem act_of_ok {x : Act α} {a : α} {store : Store} (h : x s.store = (.ok a, store)) :
    act x s = (.ok a, { s with store := store }) := by
  unfold act
  rw [h]

/-- A name is read as it was written. -/
theorem readName_of_writeName {name : String} {v : Value} (h : writeName name v s = (.ok (), s')) :
    readName name s' = (.ok v, s') := by
  have read : readName name s' = (.ok (((s'.frames.lookup name).or (s'.bindings.get? name)).getD .null), s') := rfl
  rw [read]
  cases assigned : s.frames.assign? name v with
  | some frames =>
    have written : s' = { s with frames := frames } := by
      cases h
      simp only [assigned]
    simp [written, Scopes.lookup_assign? assigned]
  | none =>
    have written : s' = { s with bindings := s.bindings.put name v } := by
      cases h
      simp only [assigned]
    -- a name that no block declares is not found in a block afterwards either
    have undeclared : s.frames.lookup name = none := by
      have declared := Scopes.isSome_assign? s.frames name v
      simpa [assigned] using declared
    simp [written, undeclared]

/-- A turn is counted, and may be one too many. -/
theorem tick_eq (l : Limits) (s : Running) :
    tick l s = (l.counted (s.iterations + 1), { s with iterations := s.iterations + 1 }) := by
  unfold tick Limits.counted
  cases l.maxIterations with
  | none => rfl
  | some limit =>
    show (if limit < s.iterations + 1 then MonadExcept.throw (.iterationLimit limit) else Pure.pure () :
      Exec Unit) { s with iterations := s.iterations + 1 } = _
    dsimp only
    split <;> rfl

end Exec

end HostExpr
