import HostExpr.Proofs.Soundness.Expr

/-!
# The types of statements are kept

A statement that finishes normally finishes with what suits its type, and behind it names hold what suits them: what it
declares is in the innermost frame with the type that is recorded for it. A statement that returns gives what suits the
type of some `return`; of the names nothing is said then, since nothing is run any more that could read them. The
induction is on the statement; loops add one on the turns.
-/

namespace HostExpr

open Typed Classes

namespace Typed.Stmt

/-- The start of a `for` statement is one declaration, or an expression. Several declarations would be a block of their
own in a run. -/
def isSingleStart : Option Stmt → Bool
  | none | some (.expr _) | some (.declare ..) => true
  | _ => false

mutual

/-- No `for` statement starts with several declarations. -/
def startsSingly : Stmt → Bool
  | .block _ body | .whileLoop _ _ body | .forEach _ _ _ _ body => startsSinglyAll body
  | .branch _ _ thenBody elseBody =>
    startsSinglyAll thenBody &&
      match elseBody with
      | some body => startsSinglyAll body
      | none => true
  | .forLoop _ init _ _ body => isSingleStart init && startsSinglyAll body
  | .expr _ | .declare .. | .returns .. | .nop _ => true

/-- The same of statements in a row. -/
def startsSinglyAll : List Stmt → Bool
  | [] => true
  | s :: ss => startsSingly s && startsSinglyAll ss

end

/-- A single start is no block. -/
theorem ne_block_of_isSingleStart {start : Stmt} (h : isSingleStart (some start)) (i : Info) (row : List Stmt) :
    start ≠ .block i row := by
  cases start with
  | block j row => cases h
  | _ => exact Stmt.noConfusion

theorem startsSingly_of_isSingleStart {start : Stmt} (h : isSingleStart (some start)) : start.startsSingly := by
  cases start with
  | expr e => rfl
  | declare i name declared init inBlock => rfl
  | _ => cases h

end Typed.Stmt

namespace Scopes

theorem followingInit_some {Θ : Scopes Ty} {start : Stmt} (h : ∀ i row, start ≠ .block i row) :
    Θ.followingInit (some start) = Θ.following start := by
  cases start with
  | block i row => exact absurd rfl (h i row)
  | _ => rfl

end Scopes

/-- A statement finishes with what suits its type, where a condition holds of the state, or it returns what suits one
of the types of returns. -/
def Flow.Suits (cs : Classes) (t : Ty) (returns : List Ty) (P : Running → Prop) : Flow → Running → Prop
  | .normal v, s => cs.suits v t ∧ P s
  | .returned v, _ => ∃ u ∈ returns, cs.suits v u

section

variable {cs : Classes} {t u : Ty} {returns : List Ty} {P Q : Running → Prop} {s s' : Running}

/-- A statement of which nothing is known. -/
theorem Flow.Suits.dynamic {flow : Flow} (h : flow.Suits cs u returns P s) (object : t = .object) :
    flow.Suits cs t returns P s := by
  cases flow with
  | normal v =>
    rw [object]
    exact ⟨suits_of_isDynamic rfl v, h.2⟩
  | returned v => exact h

/-- What comes behind a statement is only run if it finishes normally. -/
theorem Gives.orReturn {flow : Flow} {next : Value → Exec Flow} (h : flow.Suits cs u returns P s)
    (rest : ∀ v, flow = .normal v → cs.suits v u → P s → Gives (next v) s (Flow.Suits cs t returns Q)) :
    Gives (Exec.orReturn flow next) s (Flow.Suits cs t returns Q) := by
  cases flow with
  | normal v => exact rest v rfl h.1 h.2
  | returned v => exact .pure h

/-- A loop that keeps a condition. -/
theorem Gives.whileTrue {cond : Exec Bool} {checkCond checkBody : Running → Bool} {body : Exec Flow}
    (hc : ∀ s, P s → checkCond s → Gives cond s fun _ s' => P s')
    (hb : ∀ s, P s → checkBody s → Gives body s (Flow.Suits cs u returns P)) (turns : Nat) (s : Running) (hs : P s)
    (reads : Exec.alongWhile cond checkCond body checkBody turns s) :
    Gives (Exec.whileTrue cond body turns) s (Flow.Suits cs t returns P) := by
  induction turns generalizing s with
  -- by induction on the turns; every turn starts with the condition, in a state that still holds
  | zero => exact .throw _
  | succ turns ih =>
    obtain ⟨first, behind⟩ := Bool.and_eq_true_iff.1 reads
    refine .bind fun holds s₁ hcond => ?_
    have hs₁ := hc s hs first holds s₁ hcond
    have reads := Exec.check_of_after behind hcond
    cases holds with
    | false => exact .pure ⟨cs.suits_null t, hs₁⟩
    | true =>
      obtain ⟨inside, behind⟩ := Bool.and_eq_true_iff.1 reads
      refine .bind fun flow s₂ hflow => .orReturn (hb s₁ hs₁ inside flow s₂ hflow) fun v same _ hs₂ => ?_
      have reads := Exec.check_of_after behind hflow
      rw [same] at reads
      exact ih s₂ hs₂ reads

/-- A loop over items that keeps a condition. -/
theorem Gives.forEach {body : Value → Exec Flow} {check : Value → Running → Bool}
    (hb : ∀ v s, P s → check v s → Gives (body v) s (Flow.Suits cs u returns P)) (items : List Value) (s : Running)
    (hs : P s) (reads : Exec.alongItems body check items s) :
    Gives (Exec.forEach body items) s (Flow.Suits cs t returns P) := by
  induction items generalizing s with
  | nil => exact .pure ⟨cs.suits_null t, hs⟩
  | cons v items ih =>
    obtain ⟨inside, behind⟩ := Bool.and_eq_true_iff.1 reads
    refine .bind fun flow s₁ hflow => .orReturn (hb v s hs inside flow s₁ hflow) fun w same _ hs₁ => ?_
    have reads := Exec.check_of_after behind hflow
    rw [same] at reads
    exact ih s₁ hs₁ reads

end

namespace Setting

variable {σ : Setting} {ctx : Context} {config : Config} {o : Outset σ.world} {z : AnalysisState} {env : Environment}
  {Θ Φ Ψ : Scopes Ty} {s s' : Running} {t : Ty} {returns : List Ty}

/-- Where names hold what suits them and a check is passed, a statement finishes with what suits its type, and names
hold what suits them behind it. -/
def Finishes (σ : Setting) (o : Outset σ.world) (env : Environment) (Φ Ψ : Scopes Ty) (t : Ty) (returns : List Ty)
    (check : Running → Bool) (x : Exec Flow) : Prop :=
  ∀ s : Running, s.Holds o env Φ → check s →
    Gives x s (Flow.Suits σ.world.classes t returns (·.Holds o env Ψ))

/-! ## Parts of statements -/

/-- A statement in a block. -/
theorem Finishes.inBlock {check : Running → Bool} {x : Exec Flow} (h : σ.Finishes o env Φ.push Ψ t returns check x) :
    σ.Finishes o env Φ Ψ.popped t returns (Exec.within check) (Exec.inBlock x) := by
  intro s holds reads
  refine .inBlock ((h _ holds.push reads).weaken fun flow s' given => ?_)
  cases flow with
  | normal v => exact ⟨given.1, given.2.popped⟩
  | returned v => exact given

/-- A statement one level deeper. -/
theorem gives_deeper {x : Exec Flow}
    (h : Gives x { s with depth := s.depth + 1 }
      (Flow.Suits σ.world.classes t returns (·.Holds o env Ψ))) :
    Gives (σ.deeper x) s (Flow.Suits σ.world.classes t returns (·.Holds o env Ψ)) := by
  refine .nested (h.weaken fun flow s' given => ?_)
  cases flow with
  | normal v => exact ⟨given.1, given.2.of_same rfl rfl given.2.sites⟩
  | returned v => exact given

/-- The same, and the checks behind it. -/
theorem Finishes.deeper {check : Running → Bool} {x : Exec Flow} (h : σ.Finishes o env Φ Ψ t returns check x)
    (holds : s.Holds o env Φ) {rest : Flow → Running → Bool} (reads : σ.along check x rest s) :
    Gives (σ.deeper x) s fun flow s' =>
      flow.Suits σ.world.classes t returns (·.Holds o env Ψ) s' ∧ rest flow s' := by
  obtain ⟨first, behind⟩ := Bool.and_eq_true_iff.1 reads
  have inside : { s with depth := s.depth + 1 }.Holds o env Φ := holds.of_same rfl rfl holds.sites
  exact (gives_deeper (h _ inside first)).and fun flow s' hflow => Exec.check_of_after behind hflow

/-- A statement one level deeper that never returns, and then another one. -/
theorem Finishes.followed {Ω : Scopes Ty} {u : Ty} {check check' : Running → Bool} {x y : Exec Flow}
    (h : σ.Finishes o env Φ Ψ t returns check x) (normal : ∀ s, Gives x s fun flow _ => ∃ v, flow = .normal v)
    (h' : σ.Finishes o env Ψ Ω u returns check' y) :
    σ.Finishes o env Φ Ω u returns (σ.along check x fun _ => check') (do let _ ← σ.deeper x; y) := by
  intro s holds reads
  refine .bind fun flow s₁ hflow => ?_
  obtain ⟨given, reads⟩ := Finishes.deeper h holds reads flow s₁ hflow
  have deeper : Gives (σ.deeper x) s fun flow _ => ∃ v, flow = .normal v := .nested (normal _)
  obtain ⟨v, rfl⟩ := deeper flow s₁ hflow
  exact h' s₁ given.2 reads

/-- What starts a `for` statement never returns. -/
theorem normal_start {start : Stmt} (h : Stmt.isSingleStart (some start)) (s : Running) :
    Gives (σ.run start) s fun flow _ => ∃ v, flow = .normal v := by
  cases start with
  | expr e => exact .map fun v _ _ => ⟨v, rfl⟩
  | declare i name declared init inBlock =>
    refine .bind fun _ _ _ => .bind fun v _ _ => ?_
    cases inBlock <;> exact .bind fun _ _ _ => .pure ⟨v, rfl⟩
  | _ => cases h

/-- The value of an expression that may be missing. -/
theorem sound_value? {x : Option Expr} (h : ∀ e ∈ x, σ.Sound o env Φ e) (holds : s.Holds o env Φ)
    (reads : σ.reads? x s) :
    Gives (σ.value? x) s fun v s' =>
      σ.world.classes.suits v ((x.map Expr.type).getD .null) ∧ s'.Holds o env Φ := by
  cases x with
  | none => exact .pure ⟨σ.world.classes.suits_null _, holds⟩
  | some e =>
    intro v s' hv
    obtain ⟨suits, holds, -⟩ := (h e rfl).operand holds reads hv
    exact ⟨suits, holds⟩

theorem holds_condition {e : Expr} (h : σ.Sound o env Φ e) (holds : s.Holds o env Φ)
    (reads : σ.reads? (some e) s) : Gives (σ.condition e) s fun _ s' => s'.Holds o env Φ := by
  refine .bind fun v s₁ hv b s₂ hb => ?_
  obtain ⟨-, holds, -⟩ := h.operand holds reads hv
  exact holds_asked holds (fun _ _ => .act _) hb

theorem holds_condition? {x : Option Expr} (h : ∀ e ∈ x, σ.Sound o env Φ e) {s : Running} (holds : s.Holds o env Φ)
    (reads : σ.reads? x s) : Gives (σ.condition? x) s fun _ s' => s'.Holds o env Φ := by
  cases x with
  | none => exact .pure holds
  | some e => exact holds_condition (h e rfl) holds reads

/-- The value that a declaration gives its name. -/
theorem suits_declared {declared : Option Ty} {init : Option Expr} {v r : Value}
    (hv : σ.world.classes.suits v ((init.map Expr.type).getD .null)) (hr : σ.world.classes.Stored v declared r) :
    σ.world.classes.suits r (Context.declaredType declared init) := by
  cases hr with
  | converted suits => exact suits
  | plain =>
    cases init with
    | none => exact suits_of_isDynamic rfl v
    | some e =>
      show σ.world.classes.suits v (if e.type.isNull then .object else e.type)
      split
      · exact suits_of_isDynamic rfl v
      · exact hv

/-- The parts of well-typed expressions in a row. -/
theorem obeys_partsAll {es : List Expr} (h : ∀ e ∈ es, ctx.WellTyped config z Θ e) :
    ∀ n ∈ Expr.partsAll es, ctx.Obeys config Θ z n := by
  intro n hn
  obtain ⟨e, he, hn⟩ := Expr.mem_partsAll.1 hn
  exact h e he n hn

/-! ## Bodies of loops -/

theorem finishes_loopBody {body : Exec Flow} {check : Running → Bool}
    (h : σ.Finishes o env Φ.push Ψ t returns check body) :
    σ.Finishes o env Φ Ψ.popped t returns (Exec.after (Exec.tick σ.limits) fun _ => Exec.within check)
      (σ.loopBody body) := by
  intro s holds reads
  refine .bind fun _ s₁ counted => ?_
  have holds := holds_asked holds (fun _ _ => .tick σ.limits) counted
  have reads := Exec.check_of_after reads counted
  exact h.inBlock s₁ holds reads

/-- A run of the body of a loop, without what follows it. -/
theorem finishes_turn {body : Exec Flow} {check : Running → Bool} (h : σ.Finishes o env Φ.push Ψ t returns check body) :
    σ.Finishes o env Φ Ψ.popped t returns (σ.readsTurn [] body check) (σ.loopBody body) :=
  fun s holds reads => finishes_loopBody h s holds (Bool.and_eq_true_iff.1 reads).1

/-- A run of the body of a `for` statement, and then the updates. -/
theorem finishes_forBody {body : Exec Flow} {check : Running → Bool} {update : List Expr}
    (h : σ.Finishes o env Φ.push Ψ t returns check body) (closed : Ψ.popped = Φ)
    (updates : ∀ s : Running, s.Holds o env Φ → σ.readsEach update s →
      Gives (σ.values update) s fun _ s' => s'.Holds o env Φ) :
    σ.Finishes o env Φ Φ .null returns (σ.readsTurn update body check) (σ.forBody update body) := by
  intro s holds reads
  obtain ⟨first, behind⟩ := Bool.and_eq_true_iff.1 reads
  refine .bind fun flow s₁ hflow => .orReturn (finishes_loopBody h s holds first flow s₁ hflow) fun v same _ holds => ?_
  rw [closed] at holds
  have reads := Exec.check_of_after behind hflow
  rw [same] at reads
  exact .bind fun vs s₂ hvs => .pure ⟨σ.world.classes.suits_null _, updates s₁ holds reads vs s₂ hvs⟩

/-- A run of the body of a loop over items: the name stands for an item, converted to the type that is written. -/
theorem finishes_itemBody (h : σ.world.KeepsTypes) {name : String} {declared : Option Ty} {item : Ty} {body : Exec Flow}
    {check : Running → Bool}
    (inside : σ.Finishes o env (Φ.push.declaring name (declared.getD item)) Ψ t returns check body) (v : Value) :
    σ.Finishes o env Φ Ψ.popped t returns (σ.readsItem name declared item check v) (σ.itemBody name declared body v) := by
  intro s holds reads
  refine .bind fun _ s₁ counted => .bind fun r s₂ hr => ?_
  have holds := holds_asked holds (fun _ _ => .tick σ.limits) counted
  obtain ⟨fits, behind⟩ := Bool.and_eq_true_iff.1 (Exec.check_of_after reads counted)
  have stored := stored_convert? h s₁ v declared r s₂ hr
  have holds := holds_asked holds (fun _ _ => σ.keeps_convert? v declared) hr
  have reads := Exec.check_of_after behind hr
  -- an item of a declared type is converted to it, and the others were checked to suit
  have suits : σ.world.classes.suits r (declared.getD item) := by
    cases stored with
    | converted suits => exact suits
    | plain => exact fits
  have named : σ.Finishes o env Φ.push Ψ t returns (Exec.after (Exec.declare name r) fun _ => check)
      (do Exec.declare name r; body) := by
    intro s holds reads
    refine .bind fun _ s' done => ?_
    have reads := Exec.check_of_after reads done
    have holds : (Exec.declare name r s).2.Holds o env (Φ.push.declaring name (declared.getD item)) :=
      holds.declareInBlock rfl suits
    rw [show (Exec.declare name r s).2 = s' from congrArg Prod.snd done] at holds
    exact inside s' holds reads
  exact named.inBlock s₂ holds reads

/-- The turns of a `for` statement. -/
theorem finishes_turns {cond : Option Expr} {update : List Expr} {body : Exec Flow} {check : Running → Bool}
    (conds : ∀ e ∈ cond, σ.Sound o env Φ e)
    (updates : ∀ s : Running, s.Holds o env Φ → σ.readsEach update s →
      Gives (σ.values update) s fun _ s' => s'.Holds o env Φ)
    (h : σ.Finishes o env Φ.push Ψ t returns check body) (closed : Ψ.popped = Φ) (u : Ty) :
    σ.Finishes o env Φ Φ u returns
      (Exec.alongWhile (σ.condition? cond) (σ.reads? cond) (σ.forBody update body) (σ.readsTurn update body check) σ.turns)
      (Exec.whileTrue (σ.condition? cond) (σ.forBody update body) σ.turns) :=
  .whileTrue (fun _ => holds_condition? conds) (finishes_forBody h closed updates) σ.turns

/-! ## Statements in a row -/

/-- The type of the last one of statements in a row. -/
theorem getLast?_type_cons (s : Stmt) (ss : List Stmt) (t : Ty) :
    ((s :: ss).getLast?.map Stmt.type).getD t = (ss.getLast?.map Stmt.type).getD s.type := by
  rw [List.getLast?_cons]
  cases ss.getLast? <;> rfl

/-- The first statement of a row, and then the others. -/
theorem gives_runAll_cons {first : Stmt} {ss : List Stmt} {before : Value} {P Q : Running → Prop}
    (head : Gives (σ.deeper (σ.run first)) s (Flow.Suits σ.world.classes first.type returns P))
    (reads : σ.readsRow (first :: ss) s)
    (rest : ∀ v s', σ.world.classes.suits v first.type → P s' → σ.readsRow ss s' →
      Gives (σ.runAll ss v) s' (Flow.Suits σ.world.classes ((ss.getLast?.map Stmt.type).getD first.type) returns Q)) :
    Gives (σ.runAll (first :: ss) before) s
      (Flow.Suits σ.world.classes (((first :: ss).getLast?.map Stmt.type).getD t) returns Q) := by
  rw [getLast?_type_cons]
  refine .bind fun flow s₁ hflow => .orReturn (head flow s₁ hflow) fun v same suits holds => ?_
  have reads := Exec.check_of_after (Bool.and_eq_true_iff.1 reads).2 hflow
  rw [same] at reads
  exact rest v s₁ suits holds reads

/-! ## One lemma for each kind of statement -/

/-- What a declaration gives its name suits the type of the name. -/
theorem suits_stored (promised : σ.world.KeepsTypes) {declared : Option Ty} {init : Option Expr}
    (sound : ∀ e ∈ init, σ.Sound o env Φ e) (holds : s.Holds o env Φ) (reads : σ.reads? init s) {s₁ s₂ : Running}
    {v r : Value} (hv : σ.value? init s = (.ok v, s₁)) (hr : σ.convert? v declared s₁ = (.ok r, s₂)) :
    σ.world.classes.suits r (Context.declaredType declared init) ∧ s₂.Holds o env Φ := by
  obtain ⟨suits, holds⟩ := sound_value? sound holds reads v s₁ hv
  have stored := stored_convert? promised s₁ v declared r s₂ hr
  exact ⟨suits_declared suits stored, holds_asked holds (fun _ _ => σ.keeps_convert? v declared) hr⟩

theorem finishes_declare (promised : σ.world.KeepsTypes) {i : Info} {name : String} {declared : Option Ty}
    {init : Option Expr} (sound : ∀ e ∈ init, σ.Sound o env Φ e) (type : i.type = Context.declaredType declared init)
    (inside : Φ.isEmpty = false) :
    σ.Finishes o env Φ (Φ.declaring name i.type) i.type returns (σ.readsRun (.declare i name declared init true))
      (σ.run (.declare i name declared init true)) := by
  intro s holds reads
  refine .bind fun v s₁ hv => .bind fun r s₂ hr => .bind fun _ s₃ done => .pure ?_
  obtain ⟨suits, holds⟩ := suits_stored promised sound holds reads hv hr
  rw [← type] at suits
  have holds : (Exec.declare name r s₂).2.Holds o env (Φ.declaring name i.type) := holds.declareInBlock inside suits
  rw [show (Exec.declare name r s₂).2 = s₃ from congrArg Prod.snd done] at holds
  exact ⟨suits, holds⟩

/-- Of what a branch comes to nothing is known but that it is an object. -/
theorem finishes_branch {i : Info} {cond : Expr} {thenBody : List Stmt} {elseBody : Option (List Stmt)}
    (type : i.type = .object) (sound : σ.Sound o env Φ cond)
    (yes : σ.Finishes o env Φ Φ t returns (Exec.within (σ.readsRow thenBody)) (Exec.inBlock (σ.runAll thenBody .null)))
    (no : ∀ body ∈ elseBody, σ.Finishes o env Φ Φ (Context.lastType body) returns (Exec.within (σ.readsRow body))
      (Exec.inBlock (σ.runAll body .null))) :
    σ.Finishes o env Φ Φ i.type returns (σ.readsRun (.branch i cond thenBody elseBody))
      (σ.run (.branch i cond thenBody elseBody)) := by
  intro s holds reads
  unfold readsRun at reads
  unfold run
  obtain ⟨asked, behind⟩ := Bool.and_eq_true_iff.1 reads
  refine .bind fun b s₁ hb => ?_
  have holds := holds_condition sound holds asked b s₁ hb
  have reads := Exec.check_of_after behind hb
  cases b with
  | true => exact (yes s₁ holds reads).weaken fun flow s' given => given.dynamic type
  | false =>
    cases elseBody with
    | none => exact .pure ⟨σ.world.classes.suits_null _, holds⟩
    | some body => exact (no body rfl s₁ holds reads).weaken fun flow s' given => given.dynamic type

theorem finishes_whileLoop {i : Info} {cond : Expr} {body : List Stmt} (sound : σ.Sound o env Φ cond)
    (row : σ.Finishes o env Φ.push Ψ t returns (σ.readsRow body) (σ.runAll body .null)) (closed : Ψ.popped = Φ) :
    σ.Finishes o env Φ Φ i.type returns (σ.readsRun (.whileLoop i cond body)) (σ.run (.whileLoop i cond body)) := by
  have turn := finishes_turn row
  rw [closed] at turn
  exact fun s holds reads => .whileTrue (fun s holds reads => holds_condition sound holds reads) turn σ.turns s holds reads

/-- The scope of the name is a block of its own around that of the body; frames have one for both. -/
theorem finishes_forEach (promised : σ.world.KeepsTypes) {i : Info} {name : String} {declared : Option Ty}
    {items : Expr} {body : List Stmt} (sound : σ.Sound o env Φ items)
    (row : σ.Finishes o env (Φ.push.declaring name (declared.getD items.type.iterated)) Ψ t returns (σ.readsRow body)
      (σ.runAll body .null))
    (closed : Ψ.popped = Φ) :
    σ.Finishes o env Φ Φ i.type returns (σ.readsRun (.forEach i name declared items body))
      (σ.run (.forEach i name declared items body)) := by
  intro s holds reads
  refine .bind fun v s₁ hv => .bind fun vs s₂ hvs => ?_
  obtain ⟨-, holds, reads⟩ := sound.operand holds reads hv
  have reads := Exec.check_of_after reads hvs
  have holds := holds_asked holds (fun _ _ => σ.keeps_itemsOf v) hvs
  have turn (w : Value) := finishes_itemBody promised row w
  rw [closed] at turn
  exact .forEach turn vs s₂ holds reads

/-- A `return` finishes nothing: of the names nothing is said behind it. -/
theorem finishes_returns {i : Info} {x : Option Expr} (sound : ∀ e ∈ x, σ.Sound o env Φ e)
    (type : i.type = (x.map Expr.type).getD .null) (known : i.type ∈ returns) :
    σ.Finishes o env Φ Ψ t returns (σ.readsRun (.returns i x)) (σ.run (.returns i x)) := by
  intro s holds reads
  refine .map fun v s' hv => ?_
  obtain ⟨suits, -⟩ := sound_value? sound holds reads v s' hv
  rw [← type] at suits
  exact ⟨i.type, known, suits⟩

/-! ## All statements -/

mutual

/-- A statement finishes with what suits its type. -/
theorem finishes_run {Θ Φ : Scopes Ty} (here : σ.Hosts ctx config z Θ Φ) (s : Stmt) (typed : ctx.StmtTyped config z Θ s)
    (within : s.parts ⊆ o.nodes) (single : s.startsSingly) :
    σ.Finishes o z.env Φ (Φ.following s) s.type z.returns (σ.readsRun s) (σ.run s) := by
  have sound {Θ Φ : Scopes Ty} (here : σ.Hosts ctx config z Θ Φ) {e : Expr} (typed : ctx.WellTyped config z Θ e)
      (part : e.parts ⊆ s.parts) : σ.Sound o z.env Φ e := sound_value here e typed (List.Subset.trans part within)
  have row {Θ Φ : Scopes Ty} (here : σ.Hosts ctx config z Θ Φ) (body : List Stmt) (smaller : sizeOf body < sizeOf s)
      (typed : ctx.StmtsTyped config z Θ body) (part : Stmt.partsAll body ⊆ s.parts) (single : Stmt.startsSinglyAll body) :
      σ.Finishes o z.env Φ (Φ.followingAll body) (Context.lastType body) z.returns (σ.readsRow body)
        (σ.runAll body .null) :=
    finishes_runAll here body typed (List.Subset.trans part within) single (σ.world.classes.suits_null .null)
  -- a row in a block of its own leaves the scopes as they were
  have closed (body : List Stmt) (smaller : sizeOf body < sizeOf s) (typed : ctx.StmtsTyped config z Θ.push body)
      (part : Stmt.partsAll body ⊆ s.parts) (single : Stmt.startsSinglyAll body) :
      σ.Finishes o z.env Φ Φ (Context.lastType body) z.returns (Exec.within (σ.readsRow body))
        (Exec.inBlock (σ.runAll body .null)) := by
    have whole := (row here.push body smaller typed part single).inBlock
    rwa [Scopes.popped_followingAll, Scopes.popped_push] at whole
  cases s with
  | expr e =>
    intro s holds reads
    have e_sound := sound here typed (List.Subset.refl _)
    exact .map fun v s' hv => e_sound s holds reads v s' hv
  | declare i name declared init inBlock =>
    obtain ⟨inits, type, rfl, inside⟩ := typed
    rw [here.alike.isEmpty_eq] at inside
    have init_sound (e : Expr) (he : e ∈ init) := sound here (inits e he) (by cases he; exact List.Subset.refl _)
    exact finishes_declare here.promised init_sound type inside
  | block i body =>
    obtain ⟨type, rows⟩ := typed
    have whole := closed body (by simp +arith) rows (List.Subset.refl _) single
    rw [← type] at whole
    exact whole
  | branch i cond thenBody elseBody =>
    unfold Context.StmtTyped at typed
    obtain ⟨type, cond_typed, first, second⟩ := typed
    unfold Stmt.startsSingly at single
    obtain ⟨single_first, single_second⟩ := Bool.and_eq_true_iff.1 single
    have cond_sound := sound here cond_typed (by cases elseBody <;> simp [Stmt.parts])
    have yes := closed thenBody (by simp +arith) first (by cases elseBody <;> simp [Stmt.parts]) single_first
    refine finishes_branch type cond_sound yes fun body else_body => ?_
    cases else_body
    exact closed body (by simp +arith) second (by simp [Stmt.parts]) single_second
  | whileLoop i cond body =>
    obtain ⟨type, cond_typed, rows⟩ := typed
    have cond_sound := sound here cond_typed (by simp [Stmt.parts])
    have body_row := row here.push body (by simp +arith) rows (by simp [Stmt.parts]) single
    exact finishes_whileLoop cond_sound body_row (by rw [Scopes.popped_followingAll, Scopes.popped_push])
  | forLoop i init cond update body =>
    obtain ⟨type, first, conds, updates, rows⟩ := typed
    have cond_part (e : Expr) (he : e ∈ cond) : e.parts ⊆ (Stmt.forLoop i init cond update body).parts := by
      cases he
      cases init <;> simp [Stmt.parts]
    have update_part : Expr.partsAll update ⊆ (Stmt.forLoop i init cond update body).parts := by
      cases init <;> exact fun e he => by simp [Stmt.parts, he]
    have body_part : Stmt.partsAll body ⊆ (Stmt.forLoop i init cond update body).parts := by
      cases init <;> exact fun e he => by simp [Stmt.parts, he]
    obtain ⟨single_start, single_body⟩ := Bool.and_eq_true_iff.1 single
    -- the loop, with the names that its start declares
    have turns {Φ : Scopes Ty} (here : σ.Hosts ctx config z (Θ.push.followingInit init) Φ) :=
      finishes_turns (fun e he => sound here (conds e he) (cond_part e he))
        (holds_values here update (obeys_partsAll updates) (List.Subset.trans update_part within))
        (row here.push body (by simp +arith) rows body_part single_body) (Scopes.popped_followingAll body) i.type
    cases init with
    | none =>
      have whole := (turns here.push).inBlock
      rw [Scopes.popped_push] at whole
      exact whole
    | some start =>
      have plain := Stmt.ne_block_of_isSingleStart single_start
      rw [Context.initTyped_iff plain] at first
      rw [Scopes.followingInit_some plain] at turns
      have start_part : start.parts ⊆ (Stmt.forLoop i (some start) cond update body).parts := by simp [Stmt.parts]
      have started := finishes_run here.push start first (List.Subset.trans start_part within)
        (Stmt.startsSingly_of_isSingleStart single_start)
      have whole := (Finishes.followed started (normal_start single_start) (turns (here.push.following start))).inBlock
      rw [Scopes.popped_following, Scopes.popped_push] at whole
      exact whole
  | forEach i name declared items body =>
    obtain ⟨type, items_typed, rows⟩ := typed
    have items_sound := sound here items_typed (by simp [Stmt.parts])
    have inside := (here.push.declaring name (declared.getD items.type.iterated)).pushLeft (Scopes.isEmpty_declaring _ _ _)
    have body_row := row inside body (by simp +arith) rows (by simp [Stmt.parts]) single
    refine finishes_forEach here.promised items_sound body_row ?_
    rw [Scopes.popped_followingAll, Scopes.popped_declaring, Scopes.popped_push]
  | returns i x =>
    obtain ⟨values, type, known⟩ := typed
    have value_sound (e : Expr) (he : e ∈ x) := sound here (values e he) (by cases he; exact List.Subset.refl _)
    exact finishes_returns value_sound type known
  | nop i => exact fun s holds _ => .pure ⟨σ.world.classes.suits_null _, holds⟩
termination_by sizeOf s

/-- Statements in a row finish with what suits the type of the last one, or of what was there before them. -/
theorem finishes_runAll {Θ Φ : Scopes Ty} (here : σ.Hosts ctx config z Θ Φ) (ss : List Stmt)
    (typed : ctx.StmtsTyped config z Θ ss) (within : Stmt.partsAll ss ⊆ o.nodes) (single : Stmt.startsSinglyAll ss)
    {last : Value} {t : Ty} (before : σ.world.classes.suits last t) :
    σ.Finishes o z.env Φ (Φ.followingAll ss) ((ss.getLast?.map Stmt.type).getD t) z.returns (σ.readsRow ss)
      (σ.runAll ss last) := by
  cases ss with
  | nil => exact fun s holds _ => .pure ⟨before, holds⟩
  | cons first ss =>
    obtain ⟨single_first, single_rest⟩ := Bool.and_eq_true_iff.1 single
    have head := finishes_run here first typed.1 (List.Subset.trans (List.subset_append_left _ _) within) single_first
    intro s holds reads
    have deeper := (Finishes.deeper head holds reads).weaken fun _ _ given => given.1
    refine gives_runAll_cons deeper reads fun v s₁ suits holds reads => ?_
    exact finishes_runAll (here.following first) ss typed.2 (List.Subset.trans (List.subset_append_right _ _) within)
      single_rest suits s₁ holds reads
termination_by sizeOf ss

end

end Setting

end HostExpr
