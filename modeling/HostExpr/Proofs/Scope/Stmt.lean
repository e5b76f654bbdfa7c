import HostExpr.Proofs.Scope.Expr

/-!
# Tracked runs of statements

A statement does the same in a tracked run, and all accesses to names in it are sound. Behind it the frames are those
that the text lets expect: a declaration has added its name to the innermost frame, and any other statement has closed
what it opened, whether it has returned or not. The induction is on the statement; loops add one on the turns.
-/

namespace HostExpr

open Typed

variable (σ : Setting) {Γ : Scopes Declared} {Φ : Scopes Path}

/-! ## Loops -/

theorem follows_orReturn {flow : Flow} {next : Value → Tracking Flow} {next' : Value → Exec Flow}
    (h : ∀ v, Follows Φ (next v) (next' v) Φ) :
    Follows Φ (Tracking.orReturn flow next) (Exec.orReturn flow next') Φ := by
  cases flow with
  | normal v => exact h v
  | returned v => exact .pure fun _ hm => hm

/-- A loop that finds the frames as it left them. -/
theorem follows_whileTrue {cond : Tracking Bool} {cond' : Exec Bool} {body : Tracking Flow} {body' : Exec Flow}
    (hc : Follows Φ cond cond' Φ) (hb : Follows Φ body body' Φ) (turns : Nat) :
    Follows Φ (Tracking.whileTrue cond body turns) (Exec.whileTrue cond' body' turns) Φ := by
  induction turns with
  | zero => exact .throw _
  | succ turns ih =>
    unfold Tracking.whileTrue Exec.whileTrue
    refine hc.bind fun holds => ?_
    cases holds with
    | true => exact hb.bind fun flow => follows_orReturn fun _ => ih
    | false => exact .pure fun _ hm => hm

/-- A loop over items that finds the frames as it left them. -/
theorem follows_forEach {body : Value → Tracking Flow} {body' : Value → Exec Flow}
    (hb : ∀ v, Follows Φ (body v) (body' v) Φ) (items : List Value) :
    Follows Φ (Tracking.forEach body items) (Exec.forEach body' items) Φ := by
  induction items with
  | nil => exact .pure fun _ hm => hm
  | cons v items ih =>
    unfold Tracking.forEach Exec.forEach
    exact (hb v).bind fun flow => follows_orReturn fun _ => ih

namespace Setting

theorem follows_loopBody {body : Tracking Flow} {body' : Exec Flow}
    (h : Tracks (·.Fits Φ.push) body body' fun _ m => m.closing.Fits Φ) :
    Follows Φ (Tracking.loopBody σ body) (σ.loopBody body') Φ :=
  Tracks.bind (.lift (.tick σ.limits)) fun _ => .inBlock h

/-- A run of the body of a loop over items. -/
theorem follows_itemBody {p : Path} (hp : ¬ Φ.Has p) (name : String) (declared : Option Ty)
    {body : Tracking Flow} {body' : Exec Flow}
    (h : Tracks (·.Fits (Φ.push.declaring name p)) body body' fun _ m => m.closing.Fits Φ) (item : Value) :
    Follows Φ (Tracking.itemBody σ p name declared body item) (σ.itemBody name declared body' item) Φ := by
  refine Tracks.bind (.lift (.tick σ.limits)) fun _ => ?_
  refine Tracks.bind (.lift (σ.keeps_convert? item declared)) fun item => ?_
  have hp' : ¬ Φ.push.Has p := fun hm => hp (Scopes.has_push.1 hm)
  exact .inBlock ((Tracks.declare hp' name item).bind fun _ => h)

/-! ## Parts of statements -/

theorem follows_value? (hc : Covers Γ Φ) (e : Option Expr) :
    Follows Φ (Tracking.value? σ Γ e) (σ.value? e) Φ := by
  cases e with
  | none => exact .pure fun _ hm => hm
  | some e => exact .deeper σ (σ.follows_value hc e)

theorem follows_condition (hc : Covers Γ Φ) (cond : Expr) :
    Follows Φ (Tracking.condition σ Γ cond) (σ.condition cond) Φ := by
  have operand : Follows Φ _ _ Φ := .deeper σ (σ.follows_value hc cond)
  exact operand.bind fun _ => .lift (.act _)

theorem follows_condition? (hc : Covers Γ Φ) (cond : Option Expr) :
    Follows Φ (Tracking.condition? σ Γ cond) (σ.condition? cond) Φ := by
  cases cond with
  | none => exact .pure fun _ hm => hm
  | some cond => exact σ.follows_condition hc cond

theorem follows_forBody (hc : Covers Γ Φ) (update : List Expr) {body : Tracking Flow} {body' : Exec Flow}
    (h : Tracks (·.Fits Φ.push) body body' fun _ m => m.closing.Fits Φ) :
    Follows Φ (Tracking.forBody σ Γ update body) (σ.forBody update body') Φ := by
  refine (σ.follows_loopBody h).bind fun flow => follows_orReturn fun _ => ?_
  exact (σ.follows_values hc update).bind fun _ => .pure fun _ hm => hm

/-- The declaration at a path. -/
theorem follows_declareName (hc : Covers Γ Φ) {p : Path} (hp : ¬ Φ.Has p) (info : Info) (name : String)
    (declared : Option Ty) (init : Option Expr) (inBlock : Bool) :
    Follows Φ (Tracking.declareName σ Γ p name declared init inBlock)
      (σ.declareName name declared init inBlock)
      (Φ.after id p (.declare info name declared init inBlock)) := by
  unfold Tracking.declareName declareName
  refine (σ.follows_value? hc init).bind fun v => ?_
  refine Tracks.bind (.lift (σ.keeps_convert? v declared)) fun v => ?_
  cases inBlock with
  | true => exact (Tracks.declare hp name v).bind fun _ => .pure fun _ hm => hm
  | false => exact Tracks.bind (.lift (.bindName name v)) fun _ => .pure fun _ hm => hm

/-- What a `for` statement does once its frame is open: its start, and then the loop. -/
def afterInit (init : Option Stmt) (loop : Exec Flow) : Exec Flow :=
  match init with
  | some s => do
    let _ ← σ.deeper (σ.run s)
    loop
  | none => loop

/-! ## Statements -/

mutual

/-- The statement at a path. -/
theorem follows_run {Γ : Scopes Declared} {Φ : Scopes Path} (hc : Covers Γ Φ) {p : Path} (ho : Outside p Γ Φ) (s : Stmt) :
    Follows Φ (Tracking.run σ Γ p s) (σ.run s) (Φ.after id p s) := by
  have hp : ¬ Φ.Has p := fun hm => ho.framed p hm (List.suffix_refl p)
  have row (q : Path) (hq : p <:+ q) (body : List Stmt) (h : sizeOf body < sizeOf s) :
      Tracks (·.Fits Φ.push) (Tracking.runAll σ Γ.push q 0 body .null) (σ.runAll body .null)
        fun _ m => m.closing.Fits Φ := by
    refine follows_runAll hc.push ?_ body .null
    intro j _
    exact ho.push.inner (hq.trans (List.suffix_cons j q))
  -- by recursion on the statement: a body runs in a frame of its own, on the path of the statement
  cases s with
  | expr e =>
    unfold Tracking.run run
    exact (σ.follows_value hc e).map _ fun _ _ hm => hm
  | declare info name declared init inBlock =>
    unfold Tracking.run run
    exact σ.follows_declareName hc hp info name declared init inBlock
  | block info body =>
    unfold Tracking.run run
    exact .inBlock (row p (List.suffix_refl p) body (by simp +arith))
  | branch info cond thenBody elseBody =>
    unfold Tracking.run run
    refine (σ.follows_condition hc cond).bind fun holds => ?_
    cases holds with
    | true => exact .inBlock (row (0 :: p) (List.suffix_cons 0 p) thenBody (by simp +arith))
    | false =>
      cases elseBody with
      | none => exact .pure fun _ hm => hm
      | some body => exact .inBlock (row (1 :: p) (List.suffix_cons 1 p) body (by simp +arith))
  | whileLoop info cond body =>
    unfold Tracking.run run
    have turn := σ.follows_loopBody (row p (List.suffix_refl p) body (by simp +arith))
    exact follows_whileTrue (σ.follows_condition hc cond) turn σ.turns
  | forLoop info init cond update body =>
    unfold Tracking.run run
    have start := ho.push.inner (List.suffix_cons 0 p)
    have covers := hc.push.afterInit start init
    have rest : Tracks (·.Fits (Φ.push.framesAfterInit (0 :: p) init).push)
        (Tracking.runAll σ (Γ.push.afterInit (0 :: p) init).push (1 :: p) 0 body .null) (σ.runAll body .null)
        fun _ m => m.closing.Fits (Φ.push.framesAfterInit (0 :: p) init) := by
      refine follows_runAll covers.push ?_ body .null
      intro j _
      have inner := ho.push.inner ((List.suffix_cons 1 p).trans (List.suffix_cons j (1 :: p)))
      refine (inner.afterInit ?_ ?_ init).push
      · exact Outside.not_suffix_of_length (by simp)
      · intro k hs
        have := hs.eq_of_length rfl
        simp at this
    have turn := σ.follows_forBody covers update rest
    have loop := follows_whileTrue (σ.follows_condition? covers cond) turn σ.turns
    refine .inBlock (tracks_init hc.push rfl start init (loop.weaken fun _ m hm => ?_))
    have := hm.closing
    rw [Scopes.popped_framesAfterInit] at this
    exact this
  | forEach info name declared items body =>
    unfold Tracking.run run
    have operand : Follows Φ _ _ Φ := .deeper σ (σ.follows_value hc items)
    refine operand.bind fun v => ?_
    refine Tracks.bind (.lift (σ.keeps_itemsOf v)) fun items => ?_
    refine follows_forEach (σ.follows_itemBody hp name declared ?_) items
    have covers := (hc.push.declaring ho.push name).pushScope (by simp)
    have rest := follows_runAll covers (p := p) (i := 0) ?_ body .null
    · rw [Scopes.popped_declaring] at rest
      exact rest
    · intro j _
      have inner := ho.push.inner (List.suffix_cons j p)
      exact (inner.declaring (Outside.not_suffix_of_length (by simp)) name true).pushScope
  | returns info e =>
    unfold Tracking.run run
    exact (σ.follows_value? hc e).map _ fun _ _ hm => hm
  | nop info =>
    unfold Tracking.run run
    exact .pure fun _ hm => hm
termination_by sizeOf s

/-- The start of a `for` statement, and what follows it. -/
theorem tracks_init {Γ : Scopes Declared} {Φ : Scopes Path} (hc : Covers Γ Φ) (hs : Γ.isEmpty = false) {p : Path}
    (ho : Outside p Γ Φ) (init : Option Stmt) {x : Tracking Flow} {y : Exec Flow} {Q : Flow → Marks → Prop}
    (h : Tracks (·.Fits (Φ.framesAfterInit p init)) x y Q) :
    Tracks (·.Fits Φ) (do Tracking.runInit σ Γ p init; x) (σ.afterInit init y) Q := by
  cases init with
  | none =>
    unfold Tracking.runInit
    rw [pure_bind]
    exact h
  | some s =>
    -- the first part of a loop is run one level deeper, before the rest
    have start (x₀ : Tracking Flow) (hx : Follows Φ x₀ (σ.run s) (Φ.after id p s)) :
        Tracks (·.Fits Φ) (do let _ ← Tracking.nested σ.limits x₀; x) (do let _ ← σ.deeper (σ.run s); y) Q :=
      (Follows.deeper σ hx).bind fun _ => h
    cases s with
    -- a row of declarators stands for a block, whose scope is that of the loop
    | block info row =>
      unfold Tracking.runInit
      rw [bind_assoc]
      simp only [pure_bind]
      refine start _ ?_
      unfold run
      refine .inBlock (follows_runAll (hc.pushFrame hs) ?_ row .null)
      intro j _
      exact ho.pushFrame.inner (List.suffix_cons j p)
    | _ =>
      unfold Tracking.runInit
      rw [bind_assoc]
      simp only [pure_bind]
      exact start _ (follows_run hc ho _)
termination_by sizeOf init

/-- Statements in a row. -/
theorem follows_runAll {Γ : Scopes Declared} {Φ : Scopes Path} (hc : Covers Γ Φ) {p : Path} {i : Nat}
    (ho : ∀ j, i ≤ j → Outside (j :: p) Γ Φ) (ss : List Stmt) (last : Value) :
    Tracks (·.Fits Φ) (Tracking.runAll σ Γ p i ss last) (σ.runAll ss last) fun _ m => m.closing.Fits Φ.popped := by
  cases ss with
  | nil =>
    unfold Tracking.runAll runAll
    exact .pure fun _ hm => hm.closing
  | cons s ss =>
    unfold Tracking.runAll runAll
    have here := ho i (Nat.le_refl i)
    have first : Follows Φ _ _ _ := .deeper σ (follows_run hc here s)
    refine first.bind fun flow => ?_
    cases flow with
    -- what follows a return is not run, and its declarations are not made
    | returned v =>
      refine .pure fun m hm => ?_
      have := hm.closing
      rw [Scopes.popped_after] at this
      exact this
    | normal v =>
      have rest := follows_runAll (hc.after here s) (p := p) (i := i + 1) ?_ ss v
      · rw [Scopes.popped_after] at rest
        exact rest
      · intro j hj
        exact (ho j (by omega)).after (Outside.not_suffix_of_ne (by omega)) s
termination_by sizeOf ss

end

end Setting

end HostExpr
