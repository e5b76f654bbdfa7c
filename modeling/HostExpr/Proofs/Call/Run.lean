import HostExpr.Execution.Program
import HostExpr.Proofs.Call.Value

/-!
# Runs call bodies well

Running a part of a well-made program calls bodies well. The induction is on the statement; loops add one on the turns.
-/

namespace HostExpr

open Typed

namespace Exec.Proper

variable {w : World} {p : Program}

theorem orReturn {flow : Flow} {next : Value → Exec Flow} (h : ∀ v, Proper w p (next v) fun _ => True) :
    Proper w p (Exec.orReturn flow next) fun _ => True := by
  cases flow with
  | normal v => exact h v
  | returned v => exact .pure trivial

theorem whileTrue {cond : Exec Bool} {body : Exec Flow} (hc : Proper w p cond fun _ => True)
    (hb : Proper w p body fun _ => True) (turns : Nat) : Proper w p (Exec.whileTrue cond body turns) fun _ => True := by
  induction turns with
  | zero => exact .throw nofun
  | succ turns ih =>
    unfold Exec.whileTrue
    refine hc.bind fun holds _ => ?_
    cases holds with
    | true => exact hb.bind fun flow _ => .orReturn fun _ => ih
    | false => exact .pure trivial

theorem forEach {body : Value → Exec Flow} (hb : ∀ v, Proper w p (body v) fun _ => True) (items : List Value) :
    Proper w p (Exec.forEach body items) fun _ => True := by
  induction items with
  | nil => exact .pure trivial
  | cons v items ih =>
    unfold Exec.forEach
    exact (hb v).bind fun flow _ => .orReturn fun _ => ih

end Exec.Proper

namespace Setting

open Exec

variable {σ : Setting} {p : Program} {env : Environment}

/-! ## Parts of statements -/

theorem proper_itemsOf (σ : Setting) (p : Program) (v : Value) :
    Proper σ.world p (σ.itemsOf v) fun _ => True := by
  unfold itemsOf
  split
  · exact .act (.quiet (Act.quiet_items _))
  · exact .act (.quiet (Act.quiet_items _))
  · exact .act (.quiet (.bind (Act.quiet_entries _) fun _ => .pure _))
  · exact .pure trivial
  · exact .pure trivial
  · exact .fail nofun

theorem proper_value? (wm : p.WellMade σ.world env) (e : Option Expr)
    (he : (e.map Expr.parts).getD [] ⊆ Stmt.partsAll p.body) : Proper σ.world p (σ.value? e) fun _ => True := by
  cases e with
  | none => exact .pure trivial
  | some e => exact proper_deeper (proper_value wm e he)

theorem proper_condition (wm : p.WellMade σ.world env) (cond : Expr) (hc : cond.parts ⊆ Stmt.partsAll p.body) :
    Proper σ.world p (σ.condition cond) fun _ => True :=
  (proper_deeper (proper_value wm cond hc)).bind fun v _ => σ.proper_truth p v

theorem proper_condition? (wm : p.WellMade σ.world env) (cond : Option Expr)
    (hc : (cond.map Expr.parts).getD [] ⊆ Stmt.partsAll p.body) :
    Proper σ.world p (σ.condition? cond) fun _ => True := by
  cases cond with
  | none => exact .pure trivial
  | some cond => exact proper_condition wm cond hc

theorem proper_declareName (wm : p.WellMade σ.world env) (name : String) (declared : Option Ty) (init : Option Expr)
    (hi : (init.map Expr.parts).getD [] ⊆ Stmt.partsAll p.body) (inBlock : Bool) :
    Proper σ.world p (σ.declareName name declared init inBlock) fun _ => True := by
  unfold declareName
  refine (proper_value? wm init hi).bind fun v _ => ?_
  refine (σ.proper_convert? p v declared).bind fun v _ => ?_
  cases inBlock with
  | true => exact (Proper.declare name v).bind fun _ _ => .pure trivial
  | false => exact (Proper.bindName name v).bind fun _ _ => .pure trivial

theorem proper_loopBody {body : Exec Flow} (hb : Proper σ.world p body fun _ => True) :
    Proper σ.world p (σ.loopBody body) fun _ => True :=
  (Proper.tick σ.limits).bind fun _ _ => .inBlock hb

theorem proper_forBody (wm : p.WellMade σ.world env) (update : List Expr)
    (hu : Expr.partsAll update ⊆ Stmt.partsAll p.body) {body : Exec Flow} (hb : Proper σ.world p body fun _ => True) :
    Proper σ.world p (σ.forBody update body) fun _ => True := by
  refine (proper_loopBody hb).bind fun flow _ => .orReturn fun _ => ?_
  exact (proper_values wm update hu).bind fun _ _ => .pure trivial

theorem proper_itemBody (name : String) (declared : Option Ty) {body : Exec Flow}
    (hb : Proper σ.world p body fun _ => True) (item : Value) :
    Proper σ.world p (σ.itemBody name declared body item) fun _ => True := by
  refine (Proper.tick σ.limits).bind fun _ _ => ?_
  refine (σ.proper_convert? p item declared).bind fun item _ => .inBlock ?_
  exact (Proper.declare name item).bind fun _ _ => hb

/-! ## Statements -/

mutual

/-- A statement of the program. -/
theorem proper_run (wm : p.WellMade σ.world env) (s : Stmt) (hs : s.parts ⊆ Stmt.partsAll p.body) :
    Proper σ.world p (σ.run s) fun _ => True := by
  have row (body : List Stmt) (h : sizeOf body < sizeOf s) (hb : Stmt.partsAll body ⊆ Stmt.partsAll p.body) :
      Proper σ.world p (σ.runAll body .null) fun _ => True := proper_runAll wm body hb .null
  cases s with
  | expr e =>
    unfold run
    exact (proper_value wm e hs).map fun _ _ => trivial
  | declare info name declared init inBlock =>
    unfold run
    exact proper_declareName wm name declared init hs inBlock
  | block info body =>
    unfold run
    exact .inBlock (row body (by simp +arith) hs)
  | branch info cond thenBody elseBody =>
    unfold run
    unfold Stmt.parts at hs
    obtain ⟨head, last⟩ := List.append_subset.1 hs
    obtain ⟨first, second⟩ := List.append_subset.1 head
    refine (proper_condition wm cond first).bind fun holds _ => ?_
    cases holds with
    | true => exact .inBlock (row thenBody (by simp +arith) second)
    | false =>
      cases elseBody with
      | none => exact .pure trivial
      | some body => exact .inBlock (row body (by simp +arith) last)
  | whileLoop info cond body =>
    unfold run
    obtain ⟨first, rest⟩ := List.append_subset.1 hs
    exact .whileTrue (proper_condition wm cond first) (proper_loopBody (row body (by simp +arith) rest)) σ.turns
  | forLoop info init cond update body =>
    unfold run
    unfold Stmt.parts at hs
    obtain ⟨head, last⟩ := List.append_subset.1 hs
    obtain ⟨head, updates⟩ := List.append_subset.1 head
    obtain ⟨start, checked⟩ := List.append_subset.1 head
    have turn := proper_forBody wm update updates (row body (by simp +arith) last)
    have loop := Proper.whileTrue (proper_condition? wm cond checked) turn σ.turns
    cases init with
    | none => exact .inBlock loop
    | some first => exact .inBlock ((proper_deeper (proper_run wm first start)).bind fun _ _ => loop)
  | forEach info name declared items body =>
    unfold run
    obtain ⟨first, rest⟩ := List.append_subset.1 hs
    refine (proper_deeper (proper_value wm items first)).bind fun v _ => ?_
    refine (σ.proper_itemsOf p v).bind fun items _ => ?_
    exact .forEach (proper_itemBody name declared (row body (by simp +arith) rest)) items
  | returns info e =>
    unfold run
    exact (proper_value? wm e hs).map fun _ _ => trivial
  | nop info =>
    unfold run
    exact .pure trivial
termination_by sizeOf s

/-- Statements of the program in a row. -/
theorem proper_runAll (wm : p.WellMade σ.world env) (ss : List Stmt) (hs : Stmt.partsAll ss ⊆ Stmt.partsAll p.body)
    (last : Value) : Proper σ.world p (σ.runAll ss last) fun _ => True := by
  cases ss with
  | nil =>
    unfold runAll
    exact .pure trivial
  | cons s ss =>
    unfold runAll
    obtain ⟨first, rest⟩ := List.append_subset.1 hs
    refine (proper_deeper (proper_run wm s first)).bind fun flow _ => .orReturn fun v => ?_
    exact proper_runAll wm ss rest v
termination_by sizeOf ss

end

/-! ## Programs -/

/-- A run of a well-made program. -/
theorem proper_runProgram (wm : p.WellMade σ.world env) : Proper σ.world p (σ.runProgram p) fun _ => True :=
  (proper_runAll wm p.body (List.Subset.refl _) .null).bind fun _ _ => .pure trivial

/-- A store through a well-made setter. -/
theorem proper_runSetter (wm : p.WellMade σ.world env) (v : Value) :
    Proper σ.world p (σ.runSetter p v) fun _ => True := by
  have fitted : Proper σ.world p (σ.fitEgress p v) fun _ => True := by
    unfold fitEgress
    split
    · exact .pure trivial
    · exact σ.proper_convert p v _
  unfold runSetter
  split
  · rename_i target rest body
    have within : target.parts ⊆ Stmt.partsAll p.body := by
      rw [body]
      exact List.subset_append_left _ _
    refine fitted.bind fun v _ => ?_
    exact (proper_place wm target within).bind fun place hp => proper_writePlace wm v hp
  · exact .pure trivial

end Setting

end HostExpr
