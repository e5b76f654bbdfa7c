import HostExpr.Proofs.Call.Erasure
import HostExpr.Proofs.Execution.Deeper
import HostExpr.Proofs.Lookup.Folding

/-!
# Storing through a setter and assigning

A program that assigns a name to a target evaluates the target first, and makes the value fit behind it; a setter for
the target makes its value fit first. `sameEffect_assignment` says that this is all: an assignment of a name that is
bound to a value, unless it is too deep, has the effect of storing the value late. The two orders have the same effect
if the target is a name, or if the value is stored as it is.
-/

namespace HostExpr

open Typed

theorem Running.Above.sameData {k : Nat} {p : String} {u : Value} {s t : Running} (h : s.Above k p u t) :
    s.SameData t := by
  obtain ⟨sites, shift, bound⟩ := h
  exact ⟨rfl, rfl, rfl⟩

namespace Exec

variable {α β : Type}

theorem map_apply (f : α → β) (x : Exec α) (s : Running) : (f <$> x) s = ((x s).1.map f, (x s).2) := by
  rw [map_eq_pure_bind, bind_eq_bindCont]
  cases (x s).1 <;> rfl

theorem TooDeep.of_map {outcome : Except Stop α} {f : α → β} (h : TooDeep (outcome.map f)) : TooDeep outcome := by
  obtain ⟨depth, limit, stopped⟩ := h
  cases outcome with
  | ok a => cases stopped
  | error e => exact ⟨depth, limit, congrArg Except.error (Except.error.inj stopped)⟩

theorem nested_map (limits : Limits) (f : α → β) (x : Exec α) : nested limits (f <$> x) = f <$> nested limits x := by
  funext s
  rw [map_apply]
  unfold nested
  split
  · rfl
  · rw [map_apply]
    rfl

/-- Two runs succeed alike or fail alike, and leave the same bindings, frames and heap. -/
def SameEffect (r : Except Stop α × Running) (r' : Except Stop β × Running) : Prop :=
  r.1.map (fun _ => ()) = r'.1.map (fun _ => ()) ∧ r.2.SameData r'.2

namespace SameEffect

variable {γ : Type} {r : Except Stop α × Running} {r' : Except Stop β × Running} {r'' : Except Stop γ × Running}

theorem symm (h : SameEffect r r') : SameEffect r' r :=
  ⟨h.1.symm, h.2.bindings.symm, h.2.frames.symm, h.2.heap.symm⟩

theorem trans (h : SameEffect r r') (h' : SameEffect r' r'') : SameEffect r r'' :=
  ⟨h.1.trans h'.1, h.2.bindings.trans h'.2.bindings, h.2.frames.trans h'.2.frames, h.2.heap.trans h'.2.heap⟩

end SameEffect

end Exec

namespace Setting

open Exec

variable (σ : Setting)

/-- Store a value as a setter would that evaluated its target before it makes the value fit. -/
def storeLate (p : Program) (v : Value) : Exec Unit := do
  match p.body with
  | .expr target :: _ =>
    let place ← σ.place target
    let v ← σ.fitEgress p v
    σ.writePlace v place
  | _ => return ()

/-! ## The two orders -/

/-- A name is there before the value is made to fit and after it. -/
theorem storeLate_eq_of_name {p : Program} {target : Expr} (body : p.body = [.expr target])
    (named : target.named?.isSome) (v : Value) : σ.storeLate p v = σ.runSetter p v := by
  have placed : σ.place target = Pure.pure (.name target) := by
    cases target with
    | declared i name => unfold place; rfl
    | input i name site => unfold place; rfl
    | _ => cases named
  unfold storeLate runSetter
  rw [body]
  simp only [placed, pure_bind]

/-- A value that is stored as it is may be made to fit at any time. -/
theorem storeLate_eq_of_keeps {p : Program} {target : Expr} (body : p.body = [.expr target]) {v : Value}
    (h : σ.world.classes.keeps v p.egress) : σ.storeLate p v = σ.runSetter p v := by
  have fits : σ.fitEgress p v = Pure.pure v := by
    unfold fitEgress convert
    rw [World.convertTo_eq_of_keeps h]
    split <;> rfl
  unfold storeLate runSetter
  rw [body]
  simp only [fits, pure_bind]

/-! ## Assignments -/

/-- A program that is one expression. -/
theorem runProgram_expr (e : Expr) (egress : Ty) (n : Nat) :
    σ.runProgram ⟨[.expr e], egress, n⟩ = σ.deeper (σ.value e) := by
  have one : σ.runAll [.expr e] .null = Flow.normal <$> σ.deeper (σ.value e) := by
    unfold runAll run
    rw [deeper, nested_map, map_eq_pure_bind, map_eq_pure_bind, bind_assoc]
    simp only [pure_bind, Exec.orReturn]
    unfold runAll
    rfl
  unfold runProgram
  rw [one, map_eq_pure_bind, bind_assoc]
  simp only [pure_bind, Flow.value, bind_pure]

/-- A bound name is read one level deeper. -/
theorem sinks_readBound {k : Nat} {p : String} {u : Value} (site : Nat) :
    Sinks k p u id (Pure.pure u) (σ.deeper (σ.readInput p site)) := by
  rintro s _ ⟨sites, shift, bound⟩
  by_cases deep : σ.limits.maxDepth ≤ s.depth + 1
  · refine .inl ⟨s.depth + 1, σ.limits.maxDepth, ?_⟩
    unfold deeper nested
    rw [if_pos deep]
  · have read : σ.deeper (σ.readInput p site) { s with sites := sites, depth := s.depth + 1 }
        = (.ok u, { s with sites := sites, depth := s.depth + 1 }) := by
      unfold deeper
      rw [nested_of_lt _ (Nat.lt_of_not_le deep)]
      unfold readInput
      dsimp only
      rw [bound]
      rfl
    rw [read]
    exact .inr ⟨rfl, ⟨sites, shift, bound⟩, rfl⟩

/-- An assignment of a name stores late what the name is bound to. -/
theorem sinks_assignment {p : String} {u : Value} {t : Expr} (lacks : t.Lacks p) (i j : Info) (stored : Option Ty) :
    Sinks 1 p u id (do
        let place ← σ.place t
        let v ← σ.convert? u stored
        σ.writePlace v place)
      ((fun _ => ()) <$> σ.value (.assign i (t.shifted 1) .plain (.input j p 0) stored)) := by
  -- the program evaluates target, name and conversion in this order, and its value is not looked at
  have forgets : (fun _ => ()) <$> σ.value (.assign i (t.shifted 1) .plain (.input j p 0) stored) = (do
      let place ← σ.place (t.shifted 1)
      let v ← σ.deeper (σ.readInput p 0)
      let v ← σ.convert? v stored
      σ.writePlace v place) := by
    unfold value
    simp only [map_bind, map_pure, bind_pure_unit, combine]
    unfold value
    rfl
  rw [forgets]
  refine σ.sinks_place t lacks fun place lacks => ?_
  have store (v : Value) : Sinks 1 p u id (σ.convert? v stored >>= fun v => σ.writePlace v place)
      (σ.convert? v stored >>= fun v => σ.writePlace v (place.shifted 1)) :=
    .bind (σ.sunk_convert? v stored) fun v => σ.sinks_writePlace v lacks
  rw [← pure_bind u fun v => σ.convert? v stored >>= fun v => σ.writePlace v place]
  exact .bind (σ.sinks_readBound 0) store

/-- What a setter makes of a value, by the type that it stores if that is known. -/
theorem fitEgress_eq {stored : Option Ty} (known : ∀ type, stored = some type → type.isDynamic = false)
    (body : List Stmt) (n : Nat) (v : Value) :
    σ.fitEgress ⟨body, stored.getD .object, n⟩ v = σ.convert? v stored := by
  cases stored with
  | none => rfl
  | some type => exact if_neg (Bool.not_eq_true _ ▸ known type rfl)

/-- **Assigning is storing late.** A program that assigns a name to a target, unless it is stopped for being too deep,
has the same effect as a setter for the target that evaluates the target before it makes the value fit: the value that
the name is bound to. The call sites of the two correspond, and the target has not the name. -/
theorem sameEffect_assignment {p : String} {u : Value} {t : Expr} {stored : Option Ty} (lacks : t.Lacks p)
    (known : ∀ type, stored = some type → type.isDynamic = false) (i j : Info) (egress : Ty) (n m : Nat) (store : Store)
    {bindings : Table Value} (bound : bindings.get? p = some u) {sites sites' : Array Site}
    (shift : ∀ k, sites'[k + 1]? = sites[k]?)
    (within : ¬ TooDeep (σ.runProgram ⟨[.expr (.assign i (t.shifted 1) .plain (.input j p 0) stored)], egress, m⟩
      (.start store bindings sites')).1) :
    SameEffect (σ.storeLate ⟨[.expr t], stored.getD .object, n⟩ u (.start store bindings sites))
      (σ.runProgram ⟨[.expr (.assign i (t.shifted 1) .plain (.input j p 0) stored)], egress, m⟩
        (.start store bindings sites')) := by
  rw [runProgram_expr] at within ⊢
  by_cases deep : σ.limits.maxDepth ≤ 0
  · exact absurd ⟨0, σ.limits.maxDepth, congrArg Prod.fst (if_pos deep)⟩ within
  · unfold deeper at within ⊢
    rw [nested_of_lt _ (Nat.lt_of_not_le deep)] at within ⊢
    -- from here the program runs one level deeper than the setter
    let storing : Exec Unit := do
      let place ← σ.place t
      let v ← σ.convert? u stored
      σ.writePlace v place
    have late : σ.storeLate ⟨[.expr t], stored.getD .object, n⟩ u = storing := by
      unfold storeLate
      simp only [σ.fitEgress_eq known]
      rfl
    have sunk := σ.sinks_assignment (u := u) lacks i j stored (.start store bindings sites) _ ⟨sites', shift, bound⟩
    rw [map_apply] at sunk
    rw [late]
    obtain tooDeep | ⟨same, above, -⟩ := sunk
    · exact absurd tooDeep.of_map within
    · exact ⟨same.symm, above.sameData.bindings, above.sameData.frames, above.sameData.heap⟩

end Setting

end HostExpr
