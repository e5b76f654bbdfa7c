import HostExpr.Proofs.Execution.Plain
import HostExpr.Proofs.Observe.Evaluation

/-!
# Observed runs follow runs

What is said of an observed run and the run beside it is said of single steps first, of nodes that are opened, and of
turns of loops. A relation that goes through what puts these together relates the observed evaluation of every node to
the evaluation: `Follows.value` and `Follows.run`, by induction over the tree. It may depend on which nodes can be
opened next: in a node, these are its children.
-/

namespace HostExpr

open Typed

namespace Observe

/-- A relation between observed computations and computations, given the nodes that can be opened next, that goes
through what a run is put together from. Turns of loops are related by `T`. -/
structure Follows (σ : Setting) (R : List TreeNode → ∀ {α : Type}, Observe α → Exec α → Prop)
    (T : List TreeNode → Observe Flow → Exec Flow → Prop) : Prop where
  pure : ∀ {next : List TreeNode} {α : Type} (a : α), R next (Pure.pure a) (Pure.pure a)
  bind : ∀ {next : List TreeNode} {α β : Type} {x : Observe α} {y : Exec α} {f : α → Observe β} {g : α → Exec β},
    R next x y → (∀ a, R next (f a) (g a)) → R next (x >>= f) (y >>= g)
  step : ∀ {next : List TreeNode} {α : Type} {y : Exec α}, y.Plain → R next (Observe.step y) y
  inside : ∀ {next : List TreeNode} {α : Type} {x : Observe α} {y : Exec α} {node : TreeNode}, node ∈ next →
    R node.children x y → R next (Observe.inside node x) y
  deeper : ∀ {next : List TreeNode} {α : Type} {x : Observe α} {y : Exec α} {node : TreeNode}, node ∈ next →
    R node.children x y → R next (Observe.deeper σ node x) (σ.deeper y)
  inBlock : ∀ {next : List TreeNode} {α : Type} {x : Observe α} {y : Exec α}, R next x y →
    R next (Observe.inBlock x) (Exec.inBlock y)
  turn : ∀ {next : List TreeNode} {α : Type} {prepare : Exec α} {f : α → Observe Flow} {g : α → Exec Flow},
    prepare.Plain → (∀ a, R next (f a) (g a)) →
    T next (Observe.turn σ.limits prepare f)
      (do
        Exec.tick σ.limits
        let a ← prepare
        Exec.inBlock (g a))
  /-- A turn and what comes behind it, as the updates of a `for` statement do. -/
  turn_bind : ∀ {next : List TreeNode} {x : Observe Flow} {y : Exec Flow} {f : Flow → Observe Flow}
    {g : Flow → Exec Flow}, T next x y → (∀ a, R next (f a) (g a)) → T next (x >>= f) (y >>= g)
  of_turn : ∀ {next : List TreeNode} {x : Observe Flow} {y : Exec Flow}, T next x y → R next x y
  whileTrue : ∀ {next : List TreeNode} {c : Observe Bool} {c' : Exec Bool} {x : Observe Flow} {y : Exec Flow},
    R next c c' → T next x y →
    R next (Observe.whileTrue c x σ.turns) (Exec.whileTrue c' y σ.turns)

namespace Follows

variable {σ : Setting} {R : List TreeNode → ∀ {α : Type}, Observe α → Exec α → Prop}
  {T : List TreeNode → Observe Flow → Exec Flow → Prop} {next : List TreeNode}

section

variable (h : Follows σ R T)
include h

theorem map {α β : Type} {x : Observe α} {y : Exec α} (f : α → β) (hx : R next x y) : R next (f <$> x) (f <$> y) :=
  h.bind hx fun a => h.pure (f a)

theorem orReturn (flow : Flow) {f : Value → Observe Flow} {g : Value → Exec Flow} (hf : ∀ v, R next (f v) (g v)) :
    R next (Observe.orReturn flow f) (Exec.orReturn flow g) := by
  cases flow with
  | normal v => exact hf v
  | returned v => exact h.pure _

theorem forEach {x : Value → Observe Flow} {y : Value → Exec Flow} (hx : ∀ v, R next (x v) (y v))
    (items : List Value) : R next (Observe.forEach x items) (Exec.forEach y items) := by
  induction items with
  | nil => exact h.pure _
  | cons v items ih =>
    unfold Observe.forEach Exec.forEach
    exact h.bind (hx v) fun flow => h.orReturn flow fun _ => ih

theorem logic (op : LogicOp) {x x' : Observe Bool} {y y' : Exec Bool} (hx : R next x y) (hx' : R next x' y') :
    R next (Observe.logic op x x') (Setting.logic op y y') := by
  refine h.bind hx fun l => ?_
  cases op <;> cases l
  · exact h.pure _
  · exact h.map _ hx'
  · exact h.map _ hx'
  · exact h.pure _

theorem combine (op : AssignOp) {x x' : Observe Value} {y y' : Exec Value} (hx : R next x y) (hx' : R next x' y') :
    R next (Observe.combine σ op x x') (σ.combine op y y') := by
  cases op with
  | plain => exact hx'
  | compound op => exact h.bind hx fun old => h.bind hx' fun operand => h.step (.act _)

theorem readPlace {x : Observe Value} {y : Exec Value} (hx : R next x y) (p : Place) :
    R next (Observe.readPlace σ x p) (σ.readPlace y p) := by
  cases p with
  | name target => exact hx
  | property receiver name site => exact h.step (.atSite _ _ _)
  | index receiver position site => exact h.step (.atSite _ _ _)

end

/-! ## Expressions -/

mutual

theorem value (h : Follows σ R T) (e : Expr) : R (TreeNode.expr e).children (Observe.value σ e) (σ.value e) := by
  have operand (e' : Expr) (smaller : sizeOf e' < sizeOf e) (below : e' ∈ e.children) :
      R (TreeNode.expr e).children (Observe.deeper σ (.expr e') (Observe.value σ e')) (σ.deeper (σ.value e')) :=
    h.deeper (List.mem_map_of_mem below) (value h e')
  cases e with
  | constant info v =>
    unfold Observe.value Setting.value
    exact h.pure _
  | declared info name =>
    unfold Observe.value Setting.value
    exact h.step (.readName name)
  | input info name site =>
    unfold Observe.value Setting.value
    exact h.step (σ.plain_readInput name site)
  | this info =>
    unfold Observe.value Setting.value
    exact h.pure _
  | classRef info c =>
    unfold Observe.value Setting.value
    exact h.pure _
  | staticField info c field =>
    unfold Observe.value Setting.value
    exact h.step (σ.plain_staticField c field)
  | property info receiver name site =>
    unfold Observe.value Setting.value
    exact h.bind (operand receiver (by simp +arith) (.head _)) fun r => h.step (.atSite _ _ _)
  | methodCall info receiver name args site =>
    unfold Observe.value Setting.value
    refine h.bind (operand receiver (by simp +arith) (.head _)) fun r => ?_
    refine h.bind (values h args fun e he => ?_) fun vs => h.step (.atSite _ _ _)
    exact List.mem_map_of_mem (.tail _ he)
  | functionCall info function args =>
    unfold Observe.value Setting.value
    refine h.bind (values h args fun e he => ?_) fun vs => h.step (σ.plain_callFunction function vs)
    exact List.mem_map_of_mem he
  | convert info v target =>
    unfold Observe.value Setting.value
    refine h.bind (operand v (by simp +arith) (.head _)) fun v => ?_
    refine h.bind (operand target (by simp +arith) (.tail _ (.head _))) fun target => ?_
    exact h.step (σ.plain_convertToClass v target)
  | index info receiver position site =>
    unfold Observe.value Setting.value
    refine h.bind (operand receiver (by simp +arith) (.head _)) fun r => ?_
    exact h.bind (operand position (by simp +arith) (.tail _ (.head _))) fun i => h.step (.atSite _ _ _)
  | assign info target op v stored =>
    unfold Observe.value Setting.value
    have old := operand target (by simp +arith) (.head _)
    have new := operand v (by simp +arith) (.tail _ (.head _))
    refine h.bind (h.inside (List.mem_map_of_mem (.head _)) (place h target)) fun p => ?_
    refine h.bind (h.combine op (h.readPlace old p) new) fun new => ?_
    refine h.bind (h.step (σ.plain_convert? new stored)) fun new => ?_
    exact h.bind (h.step (σ.plain_writePlace new p)) fun _ => h.pure _
  | arith info op left right =>
    unfold Observe.value Setting.value
    refine h.bind (operand left (by simp +arith) (.head _)) fun l => ?_
    exact h.bind (operand right (by simp +arith) (.tail _ (.head _))) fun r => h.step (.act _)
  | logic info op left right =>
    unfold Observe.value Setting.value
    have l := h.bind (operand left (by simp +arith) (.head _)) fun v => h.step (.act (σ.world.truth v))
    have r := h.bind (operand right (by simp +arith) (.tail _ (.head _))) fun v => h.step (.act (σ.world.truth v))
    exact h.logic op l r
  | compare info op left right =>
    unfold Observe.value Setting.value
    refine h.bind (operand left (by simp +arith) (.head _)) fun l => ?_
    exact h.bind (operand right (by simp +arith) (.tail _ (.head _))) fun r => h.step (.map _ (.act _))
  | unary info op e =>
    unfold Observe.value Setting.value
    exact h.bind (operand e (by simp +arith) (.head _)) fun v => h.step (σ.plain_unary op v)
  | step info op target =>
    unfold Observe.value Setting.value
    have old := operand target (by simp +arith) (.head _)
    refine h.bind (h.inside (List.mem_map_of_mem (.head _)) (place h target)) fun p => ?_
    refine h.bind (h.readPlace old p) fun old => ?_
    refine h.bind (h.step (σ.plain_counted op _ old)) fun new => ?_
    exact h.bind (h.step (σ.plain_writePlace new p)) fun _ => h.pure _
  | cast info type e =>
    unfold Observe.value Setting.value
    exact h.bind (operand e (by simp +arith) (.head _)) fun v => h.step (.act _)
  | conditional info cond thenBranch elseBranch =>
    unfold Observe.value Setting.value
    refine h.bind (operand cond (by simp +arith) (.head _)) fun c => h.bind (h.step (.act _)) fun holds => ?_
    cases holds with
    | true => exact operand thenBranch (by simp +arith) (.tail _ (.head _))
    | false => exact operand elseBranch (by simp +arith) (.tail _ (.tail _ (.head _)))
  | construct info c args chosen =>
    unfold Observe.value Setting.value
    exact h.bind (values h args fun e he => List.mem_map_of_mem he) fun vs => h.step (.act _)
  | newArray info item items =>
    unfold Observe.value Setting.value
    exact h.bind (values h items fun e he => List.mem_map_of_mem he) fun vs => h.step (.act _)
  | newSized info item length =>
    unfold Observe.value Setting.value
    exact h.bind (operand length (by simp +arith) (.head _)) fun n => h.step (σ.plain_newSized item n)
  | inlineList info items =>
    unfold Observe.value Setting.value
    exact h.bind (values h items fun e he => List.mem_map_of_mem he) fun vs => h.step (.act _)
  | inlineMap info entries =>
    unfold Observe.value Setting.value
    exact h.bind (entryValues h entries fun e he => List.mem_map_of_mem he) fun es => h.step (.act _)
termination_by sizeOf e

theorem place (h : Follows σ R T) (e : Expr) : R (TreeNode.expr e).children (Observe.place σ e) (σ.place e) := by
  cases e with
  | property info receiver name site =>
    unfold Observe.place Setting.place
    exact h.bind (h.deeper (List.mem_map_of_mem (.head _)) (value h receiver)) fun r => h.pure _
  | index info receiver position site =>
    unfold Observe.place Setting.place
    refine h.bind (h.deeper (List.mem_map_of_mem (.head _)) (value h receiver)) fun r => ?_
    exact h.bind (h.deeper (List.mem_map_of_mem (.tail _ (.head _))) (value h position)) fun i => h.pure _
  | _ =>
    unfold Observe.place Setting.place
    exact h.pure _
termination_by sizeOf e

theorem values (h : Follows σ R T) {next : List TreeNode} (es : List Expr) (below : ∀ e ∈ es, TreeNode.expr e ∈ next) :
    R next (Observe.values σ es) (σ.values es) := by
  cases es with
  | nil =>
    unfold Observe.values Setting.values
    exact h.pure _
  | cons e es =>
    unfold Observe.values Setting.values
    refine h.bind (h.deeper (below e (.head _)) (value h e)) fun v => ?_
    exact h.bind (values h es fun e he => below e (.tail _ he)) fun vs => h.pure _
termination_by sizeOf es

theorem entryValues (h : Follows σ R T) {next : List TreeNode} (entries : List (Expr × Expr))
    (below : ∀ e ∈ entries.flatMap fun (k, v) => [k, v], TreeNode.expr e ∈ next) :
    R next (Observe.entryValues σ entries) (σ.entryValues entries) := by
  match entries with
  | [] =>
    unfold Observe.entryValues Setting.entryValues
    exact h.pure _
  | (k, v) :: rest =>
    unfold Observe.entryValues Setting.entryValues
    refine h.bind (h.deeper (below k (.head _)) (value h k)) fun k => ?_
    refine h.bind (h.deeper (below v (.tail _ (.head _))) (value h v)) fun v => ?_
    exact h.bind (entryValues h rest fun e he => below e (.tail _ (.tail _ he))) fun es => h.pure _
termination_by sizeOf entries

end

/-! ## Statements -/

section

variable (h : Follows σ R T)
include h

theorem value? (e : Option Expr) (below : ∀ e' ∈ e.toList, TreeNode.expr e' ∈ next) :
    R next (Observe.value? σ e) (σ.value? e) := by
  cases e with
  | none => exact h.pure _
  | some e => exact h.deeper (below e (.head _)) (h.value e)

theorem condition {cond : Expr} (below : TreeNode.expr cond ∈ next) :
    R next (Observe.condition σ cond) (σ.condition cond) :=
  h.bind (h.deeper below (h.value cond)) fun _ => h.step (.act _)

theorem condition? (cond : Option Expr) (below : ∀ e ∈ cond.toList, TreeNode.expr e ∈ next) :
    R next (Observe.condition? σ cond) (σ.condition? cond) := by
  cases cond with
  | none => exact h.pure _
  | some cond => exact h.condition (below cond (.head _))

theorem loopBody {x : Observe Flow} {y : Exec Flow} (hx : R next x y) :
    T next (Observe.loopBody σ x) (σ.loopBody y) :=
  h.turn (.pure ()) fun _ => hx

theorem forBody {update : List Expr} (below : ∀ e ∈ update, TreeNode.expr e ∈ next) {x : Observe Flow}
    {y : Exec Flow} (hx : R next x y) : T next (Observe.forBody σ update x) (σ.forBody update y) :=
  h.turn_bind (h.loopBody hx) fun flow => h.orReturn flow fun _ => h.bind (h.values update below) fun _ => h.pure _

theorem itemBody (name : String) (declared : Option Ty) {x : Observe Flow} {y : Exec Flow} (hx : R next x y)
    (item : Value) : T next (Observe.itemBody σ name declared x item) (σ.itemBody name declared y item) :=
  h.turn (σ.plain_convert? item declared) fun item => h.bind (h.step (.declare name item)) fun _ => hx

theorem declareName (name : String) (declared : Option Ty) (init : Option Expr) (inBlock : Bool)
    (below : ∀ e ∈ init.toList, TreeNode.expr e ∈ next) :
    R next (Observe.declareName σ name declared init inBlock) (σ.declareName name declared init inBlock) := by
  refine h.bind (h.value? init below) fun v => h.bind (h.step (σ.plain_convert? v declared)) fun v => ?_
  cases inBlock with
  | true => exact h.bind (h.step (.declare name v)) fun _ => h.pure _
  | false => exact h.bind (h.step (.bindName name v)) fun _ => h.pure _

end

mutual

theorem run (h : Follows σ R T) (s : Stmt) : R (TreeNode.stmt s).children (Observe.run σ s) (σ.run s) := by
  cases s with
  | expr e =>
    unfold Observe.run Setting.run
    exact h.map _ (h.value e)
  | declare info name declared init inBlock =>
    unfold Observe.run Setting.run
    exact h.declareName name declared init inBlock fun e he => List.mem_map_of_mem he
  | block info body =>
    unfold Observe.run Setting.run
    exact h.inBlock (runAll h body _ fun s hs => List.mem_map_of_mem hs)
  | branch info cond thenBody elseBody =>
    unfold Observe.run Setting.run
    refine h.bind (h.condition (.head _)) fun holds => ?_
    cases holds with
    | true =>
      refine h.inBlock (runAll h thenBody _ fun s hs => ?_)
      exact .tail _ (List.mem_map_of_mem (List.mem_append_left _ hs))
    | false =>
      cases elseBody with
      | none => exact h.pure _
      | some body =>
        refine h.inBlock (runAll h body _ fun s hs => ?_)
        exact .tail _ (List.mem_map_of_mem (List.mem_append_right _ hs))
  | whileLoop info cond body =>
    unfold Observe.run Setting.run
    refine h.whileTrue (h.condition (.head _)) (h.loopBody (runAll h body _ fun s hs => ?_))
    exact .tail _ (List.mem_map_of_mem hs)
  | forLoop info init cond update body =>
    unfold Observe.run Setting.run
    refine h.inBlock ?_
    have loop : R (TreeNode.stmt (.forLoop info init cond update body)).children
        (Observe.whileTrue (Observe.condition? σ cond) (Observe.forBody σ update (Observe.runAll σ body .null)) σ.turns)
        (Exec.whileTrue (σ.condition? cond) (σ.forBody update (σ.runAll body .null)) σ.turns) := by
      refine h.whileTrue (h.condition? cond fun e he => ?_)
        (h.forBody (fun e he => ?_) (runAll h body _ fun s hs => ?_))
      · exact List.mem_append_left _ (List.mem_map_of_mem (List.mem_append_left _ he))
      · exact List.mem_append_left _ (List.mem_map_of_mem (List.mem_append_right _ he))
      · exact List.mem_append_right _ (List.mem_map_of_mem (List.mem_append_right _ hs))
    cases init with
    | none => exact loop
    | some s =>
      refine h.bind (h.deeper ?_ (run h s)) fun _ => loop
      exact List.mem_append_right _ (List.mem_map_of_mem (.head _))
  | forEach info name declared items body =>
    unfold Observe.run Setting.run
    refine h.bind (h.deeper (.head _) (h.value items)) fun v => h.bind (h.step (σ.plain_itemsOf v)) fun vs => ?_
    refine h.forEach (fun item => h.of_turn (h.itemBody name declared (runAll h body _ fun s hs => ?_) item)) vs
    exact .tail _ (List.mem_map_of_mem hs)
  | returns info value =>
    unfold Observe.run Setting.run
    exact h.map _ (h.value? value fun e he => List.mem_map_of_mem he)
  | nop info =>
    unfold Observe.run Setting.run
    exact h.pure _
termination_by sizeOf s

theorem runAll (h : Follows σ R T) {next : List TreeNode} (ss : List Stmt) (last : Value)
    (below : ∀ s ∈ ss, TreeNode.stmt s ∈ next) : R next (Observe.runAll σ ss last) (σ.runAll ss last) := by
  cases ss with
  | nil =>
    unfold Observe.runAll Setting.runAll
    exact h.pure _
  | cons s ss =>
    unfold Observe.runAll Setting.runAll
    refine h.bind (h.deeper (below s (.head _)) (run h s)) fun flow => h.orReturn flow fun v => ?_
    exact runAll h ss v fun s hs => below s (.tail _ hs)
termination_by sizeOf ss

end

/-! ## Programs -/

theorem runProgram (h : Follows σ R T) (p : Program) : R p.roots (Observe.runProgram σ p) (σ.runProgram p) :=
  h.bind (h.runAll p.body .null fun _ hs => List.mem_map_of_mem hs) fun _ => h.pure _

theorem runSetter (h : Follows σ R T) (p : Program) (v : Value) :
    R p.roots (Observe.runSetter σ p v) (σ.runSetter p v) := by
  obtain ⟨body, egress, siteCount⟩ := p
  unfold Observe.runSetter Setting.runSetter
  cases body with
  | nil => exact h.pure _
  | cons s rest =>
    cases s with
    | expr target =>
      refine h.bind (h.step (σ.plain_fitEgress _ v)) fun v => ?_
      refine h.bind (h.inside (.head _) (h.place target)) fun p => h.step (σ.plain_writePlace v p)
    | _ => exact h.pure _

end Follows

/-- Where nothing is said of turns in particular, loops are related however many turns they have. -/
theorem whileTrue_related {R : ∀ {α : Type}, Observe α → Exec α → Prop}
    (pure : ∀ {α : Type} (a : α), R (Pure.pure a) (Pure.pure a))
    (bind : ∀ {α β : Type} {x : Observe α} {y : Exec α} {f : α → Observe β} {g : α → Exec β},
      R x y → (∀ a, R (f a) (g a)) → R (x >>= f) (y >>= g))
    (stop : R (throw .outOfFuel : Observe Flow) (throw .outOfFuel)) {c : Observe Bool} {d : Exec Bool}
    {x : Observe Flow} {y : Exec Flow} (hc : R c d) (hx : R x y) (turns : Nat) :
    R (Observe.whileTrue c x turns) (Exec.whileTrue d y turns) := by
  induction turns with
  -- by induction on the turns that are left; without a turn both run out of fuel
  | zero => exact stop
  | succ turns ih =>
    unfold Observe.whileTrue Exec.whileTrue
    refine bind hc fun holds => ?_
    cases holds with
    | true =>
      refine bind hx fun flow => ?_
      cases flow with
      | normal v => exact ih
      | returned v => exact pure _
    | false => exact pure _

end Observe

end HostExpr
