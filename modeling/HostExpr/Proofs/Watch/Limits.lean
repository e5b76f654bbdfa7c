import HostExpr.Proofs.Engine.Compile
import HostExpr.Proofs.Execution.Steps
import HostExpr.Proofs.Scope.Agreement
import HostExpr.Proofs.Watch.Run

/-!
# Limits only cut runs off

A run that ends within its limits is the same run under wider ones: whatever it comes to, a value or a failure, and
all that it leaves behind. Limits are looked at where a level is entered and where the body of a loop is counted, and
nothing that a run does goes on behind a stop for a limit. The relation of the two runs is `Watch.Outlasts`.
-/

namespace HostExpr

open Typed

/-! ## Limits and what they stop -/

/-- The first limits are within the second ones. -/
structure Limits.Within (l l' : Limits) : Prop where
  depth : l.maxDepth ≤ l'.maxDepth
  iterations : ∀ m, l'.maxIterations = some m → ∃ n, l.maxIterations = some n ∧ n ≤ m

/-- The run was cut off: by a limit, or in a loop that does not end. -/
def Stop.isCutOff : Stop → Bool
  | runtime _ => false
  | stackOverflow .. | iterationLimit _ | outOfFuel => true

/-- A run came to its own end. -/
def Ends {α : Type} (outcome : Except Stop α) : Prop := ∀ stop, outcome = .error stop → stop.isCutOff = false

/-- A turn that may still be counted under some limits may be counted under wider ones. -/
theorem Limits.Within.counted {l l' : Limits} (within : l.Within l') {n : Nat} (h : Ends (l.counted n)) :
    l'.counted n = l.counted n := by
  have passed : ∀ m, l.maxIterations = some m → ¬ m < n := by
    intro m hm exceeds
    unfold Limits.counted at h
    simp only [hm, if_pos exceeds] at h
    cases h _ rfl
  have passes {l : Limits} (h : ∀ m, l.maxIterations = some m → ¬ m < n) : l.counted n = .ok () := by
    unfold Limits.counted
    split
    · rename_i m hm
      exact if_neg (h m hm)
    · rfl
  rw [passes passed, passes fun m hm exceeds => ?_]
  obtain ⟨k, hk, hle⟩ := within.iterations m hm
  exact passed k hk (Nat.lt_of_le_of_lt hle exceeds)

/-- Two steps come to their own end only if the first one does. -/
theorem Ends.of_bindCont {S α β : Type} {f : α → ExceptT Stop (StateM S) β} {r : Except Stop α} {t : S}
    (h : Ends (ExceptT.bindCont f r t).1) : Ends r := by
  intro stop failed
  subst failed
  exact h stop rfl

/-- The setting with other limits, and another bound on loops without limit. -/
def Setting.under (σ : Setting) (limits : Limits) (fuel : Nat) : Setting := { σ with limits := limits, fuel := fuel }

/-- Loops have as many turns under wider limits, if those that are given for loops without limit are as many. -/
theorem Setting.turns_le_under {σ : Setting} {limits : Limits} (within : σ.limits.Within limits) {fuel : Nat}
    (h : limits.maxIterations.isSome ∨ σ.turns ≤ fuel) : σ.turns ≤ (σ.under limits fuel).turns := by
  cases hm : limits.maxIterations with
  | none =>
    have turns : (σ.under limits fuel).turns = fuel := by simp [Setting.turns, Setting.under, hm]
    rw [turns]
    rw [hm] at h
    exact h.resolve_left nofun
  | some m =>
    obtain ⟨n, hn, hle⟩ := within.iterations m hm
    simpa [Setting.turns, Setting.under, hn, hm] using hle

/-! ## One run outlasts the other -/

/-- If the watched computation comes to its own end, the other one comes to the same. -/
def Watch.Outlasts {α : Type} (x : Watch α) (y : Exec α) : Prop :=
  ∀ t : Watched, Ends (x t).1 → y t.state = ((x t).1, (x t).2.state)

namespace Exec

variable {α : Type}

/-- A level that is entered under some limits is entered under wider ones. -/
theorem nested_of_within {l l' : Limits} (within : l.Within l') {x y : Exec α} {s : Running}
    (same : Ends (x { s with depth := s.depth + 1 }).1 →
      y { s with depth := s.depth + 1 } = x { s with depth := s.depth + 1 })
    (h : Ends (nested l x s).1) : nested l' y s = nested l x s := by
  unfold nested at h ⊢
  by_cases deep : l.maxDepth ≤ s.depth
  · rw [if_pos deep] at h
    cases h _ rfl
  · have shallow : ¬ l'.maxDepth ≤ s.depth := fun h' => deep (Nat.le_trans within.depth h')
    rw [if_neg deep] at h
    rw [if_neg deep, if_neg shallow, same h]

/-- A turn that is counted under some limits is counted under wider ones. -/
theorem tick_of_within {l l' : Limits} (within : l.Within l') {s : Running} (h : Ends (tick l s).1) :
    tick l' s = tick l s := by
  rw [tick_eq] at h
  rw [tick_eq, tick_eq, within.counted h]

/-- What comes of two steps is the same if the second one does the same with what the first one gives. -/
theorem bind_eq_of_ok {β : Type} {x : Exec α} {f g : α → Exec β} {s : Running}
    (same : ∀ a s', x s = (.ok a, s') → f a s' = g a s') : (x >>= f) s = (x >>= g) s := by
  show ExceptT.bindCont f (x s).1 (x s).2 = ExceptT.bindCont g (x s).1 (x s).2
  cases hx : (x s).1 with
  | error stop => rfl
  | ok a => exact same a _ (Prod.ext hx rfl)

/-- A loop that comes to its own end in some turns comes to the same end if it has more. The induction is on the turns
that it has at first. -/
theorem whileTrue_of_le {c : Exec Bool} {x : Exec Flow} {n n' : Nat} (hn : n ≤ n') {s : Running}
    (h : Ends (whileTrue c x n s).1) : whileTrue c x n' s = whileTrue c x n s := by
  induction n generalizing n' s with
  | zero => cases h _ rfl
  | succ n ih =>
    obtain ⟨m, rfl⟩ : ∃ m, n' = m + 1 := ⟨n' - 1, by omega⟩
    unfold whileTrue at h ⊢
    refine bind_eq_of_ok fun holds s₁ looked => ?_
    rw [bind_of_ok looked] at h
    cases holds with
    | false => rfl
    | true =>
      -- the turn is the same in both loops, and what is left of them differs by the induction hypothesis only
      refine bind_eq_of_ok fun flow s₂ turned => ?_
      have turn : (x >>= fun flow => orReturn flow fun _ => whileTrue c x n) s₁
          = orReturn flow (fun _ => whileTrue c x n) s₂ := bind_of_ok turned
      have h : Ends (orReturn flow (fun _ => whileTrue c x n) s₂).1 := by
        rw [← turn]
        exact h
      cases flow with
      | returned v => rfl
      | normal v => exact ih (by omega) h

end Exec

/-- A run under some limits is outlasted by the run under wider ones. -/
theorem Watch.follows_outlasts {σ : Setting} {limits : Limits} (within : σ.limits.Within limits) {fuel : Nat}
    (enough : σ.turns ≤ (σ.under limits fuel).turns) (nodes : List Expr) (names : List String) :
    Watch.Follows σ (σ.under limits fuel) nodes names Watch.Outlasts where
  root := rfl
  pure a t _ := rfl
  bind {α β x y f g} hx hf t h := by
    have first := hx t (Ends.of_bindCont h)
    show ExceptT.bindCont g (y t.state).1 (y t.state).2 = _
    rw [first]
    have h : Ends (ExceptT.bindCont f (x t).1 (x t).2).1 := h
    show ExceptT.bindCont g (x t).1 (x t).2.state
      = ((ExceptT.bindCont f (x t).1 (x t).2).1, (ExceptT.bindCont f (x t).1 (x t).2).2.state)
    cases hr : (x t).1 with
    | error e => rfl
    | ok a =>
      rw [hr] at h
      exact hf a (x t).2 h
  step a _ t h := by
    cases a with
    | tick => exact Exec.tick_of_within within h
    | countName op type name =>
      -- the name is read one level deeper
      let rest (old : Value) : Exec Value := do
        let new ← σ.counted op type old
        Exec.writeName name new
        return old
      have first : Ends (Exec.nested σ.limits (.readName name) t.state).1 := Ends.of_bindCont (f := rest) h
      have same := Exec.nested_of_within within (y := .readName name) (fun _ => rfl) first
      show ExceptT.bindCont rest (Exec.nested limits (.readName name) t.state).1
        (Exec.nested limits (.readName name) t.state).2 = _
      rw [same]
      rfl
    | _ => rfl
  deeper {α x y} hx t h := by
    unfold Watch.deeper Watch.nested at h
    unfold Watch.deeper Watch.nested Setting.deeper Exec.nested
    by_cases deep : σ.limits.maxDepth ≤ t.state.depth
    · rw [if_pos deep] at h
      cases h _ rfl
    · have shallow : ¬ (σ.under limits fuel).limits.maxDepth ≤ t.state.depth :=
        fun h' => deep (Nat.le_trans within.depth h')
      rw [if_neg deep] at h
      rw [if_neg deep, if_neg shallow]
      dsimp only
      rw [hx { t with state := { t.state with depth := t.state.depth + 1 } } h]
      rfl
  inBlock {α x y} hx t h := by
    unfold Watch.inBlock at h
    unfold Watch.inBlock Exec.inBlock
    dsimp only
    rw [hx { t with state := { t.state with frames := t.state.frames.push } } h]
    rfl
  turns same t h := by
    have first := same σ.turns t h
    rw [Exec.whileTrue_of_le enough (by rw [first]; exact h), first]

/-! ## Runs and executions -/

/-- A run that ends within its limits is the run under wider ones. -/
theorem Setting.runProgram_of_within {σ : Setting} {limits : Limits} (within : σ.limits.Within limits) {fuel : Nat}
    (enough : limits.maxIterations.isSome ∨ σ.turns ≤ fuel) {p : Program} {s : Running} (h : Ends (σ.runProgram p s).1) :
    (σ.under limits fuel).runProgram p s = σ.runProgram p s := by
  have watched := σ.runProgram_eq_watched p (.start s)
  have ends : Ends (Watch.runProgram σ p (.start s)).1 := by
    have outcome := congrArg Prod.fst watched
    rw [← outcome]
    exact h
  have turns := σ.turns_le_under within enough
  exact ((Watch.follows_outlasts within turns _ _).runProgram (.start s) ends).trans watched.symm

namespace Workspace

/-- Execute a compiled program under limits; a loop without limit may run so often. -/
def executeFueled (ws : Workspace) (fuel : Nat) (world : World) (strategy : Strategy) (limits : Limits) (root : Value) :
    Except EngineError Value × Workspace :=
  if ws.expression.isSetter then (.error (.misuse .setterExecuted), ws)
  else ws.perform (Setting.runProgram ⟨world, strategy, limits, fuel, root⟩ ws.expression.program)

/-- **Limits are pure filters.** If an execution of a program is not cut off, by its limits or in a loop that does not
end, then under wider limits it is the same execution: the same value or failure, the same bindings, the same heap and
trace, and the same call sites. If there is no second limit on loops, they have to be given as many turns as the first
limit allows; an execution gives them more than can be waited for. -/
theorem executeWith_of_within (ws : Workspace) (world : World) (strategy : Strategy) (root : Value)
    {first second : Limits} (within : first.Within second)
    (ends : ∀ stop, (ws.executeWith world strategy first root).1 = .error (.stopped stop) → stop.isCutOff = false) :
    (∀ fuel, (setting world strategy first root).turns ≤ fuel →
      ws.executeFueled fuel world strategy second root = ws.executeWith world strategy first root)
    ∧ (second.maxIterations.isSome ∨ (setting world strategy first root).turns ≤ unlimitedTurns →
      ws.executeWith world strategy second root = ws.executeWith world strategy first root) := by
  have same (fuel : Nat)
      (enough : second.maxIterations.isSome ∨ (setting world strategy first root).turns ≤ fuel) :
      ws.executeFueled fuel world strategy second root = ws.executeWith world strategy first root := by
    unfold executeFueled executeWith
    unfold executeWith at ends
    split
    · rfl
    · rename_i program
      rw [if_neg program] at ends
      -- what ends the execution is what ends the run, with the error of the run within that of the execution
      have own : Ends ((setting world strategy first root).runProgram ws.expression.program
          (.start ws.store ws.bindings ws.expression.sites)).1 := by
        intro stop stopped
        exact ends stop (congrArg (Except.mapError EngineError.stopped) stopped)
      have run := Setting.runProgram_of_within (σ := setting world strategy first root) within enough own
      rw [perform_eq_settle, perform_eq_settle]
      exact congrArg ws.settle run
  exact ⟨fun fuel enough => same fuel (.inr enough), same unlimitedTurns⟩

end Workspace

/-! ## A loop that is let run to its end -/

/-- A program whose loop has three turns. -/
def countsToThree : String := "Integer n = 0; while (n < 3) n++; n"

/-- The loop ends if three turns are allowed, and without limit it ends in the same way. -/
theorem executeWith_of_within_countsToThree :
    ∃ x, Engine.bare.compile countsToThree false .default = .ok x
      ∧ let start : Workspace := ⟨.ofHeap .empty, [], x⟩
        (start.executeWith .bare .universal ⟨20, some 3⟩ .null).1.toOption = some (.int 3)
        ∧ start.executeWith .bare .universal .default .null = start.executeWith .bare .universal ⟨20, some 3⟩ .null := by
  have found : (Engine.bare.compile countsToThree false .default).toOption.any fun x =>
      decide (((⟨.ofHeap .empty, [], x⟩ : Workspace).executeWith .bare .universal ⟨20, some 3⟩ .null).1.toOption
        = some (.int 3)) := by
    decide +kernel
  obtain ⟨x, hx, outcome⟩ := exists_ok_of_any found
  have outcome := of_decide_eq_true outcome
  have within : (⟨20, some 3⟩ : Limits).Within .default := ⟨by decide, nofun⟩
  have same := Workspace.executeWith_of_within ⟨.ofHeap .empty, [], x⟩ .bare .universal .null within ?_
  · exact ⟨x, hx, outcome, same.2 (.inr (by decide))⟩
  · intro stop stopped
    rw [stopped] at outcome
    cases outcome

/-- With two turns it is cut off. -/
example : (Engine.bare.compile countsToThree false .default).toOption.any fun x =>
    match ((⟨.ofHeap .empty, [], x⟩ : Workspace).executeWith .bare .universal ⟨20, some 2⟩ .null).1 with
    | .error (.stopped stop) => stop = .iterationLimit 2
    | _ => false := by
  decide +kernel

end HostExpr
