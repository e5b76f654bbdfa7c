import HostExpr.Proofs.Typing.Parts
import HostExpr.Proofs.Watch.Evaluation

/-!
# Runs side by side

What is said of a watched run and of a run beside it, perhaps in another setting, is said of their steps first: a
relation between computations that goes through one step, one thing after the other, blocks, levels and loops relates
the two runs. The steps that have to be looked at are those of the program's nodes: `Action.Within`.
-/

namespace HostExpr

open Typed

/-- The place is one that the target names. -/
def Place.At (target : Expr) : Place → Prop
  | .name t => t = target
  | .property .. | .index .. => True

/-- A step that writes does so for one of the nodes, and a name that it declares is one of the names. -/
def Action.Within (nodes : List Expr) (names : List String) : Action → Prop
  | assign _ stored place =>
    ∃ i target op v, Expr.assign i target op v stored ∈ nodes ∧ target ∈ nodes ∧ place.At target
  | count _ _ _ place => ∃ target, target ∈ nodes ∧ (∀ i name, target ≠ .declared i name) ∧ place.At target
  | countName _ type name => ∃ span, Expr.declared ⟨type, span⟩ name ∈ nodes
  | declare name .. | nameItem name _ => name ∈ names
  | _ => True

/-! ## Relations that go through -/

/-- A relation between watched computations and others that goes through the steps of nodes and names, and through
what puts computations together. -/
structure Watch.Follows (σ σ' : Setting) (nodes : List Expr) (names : List String)
    (R : ∀ {α : Type}, Watch α → Exec α → Prop) : Prop where
  root : σ'.root = σ.root
  pure : ∀ {α : Type} (a : α), R (Pure.pure a) (Pure.pure a)
  bind : ∀ {α β : Type} {x : Watch α} {y : Exec α} {f : α → Watch β} {g : α → Exec β},
    R x y → (∀ a, R (f a) (g a)) → R (x >>= f) (y >>= g)
  step : ∀ a : Action, a.Within nodes names → R (Watch.step σ a) (a.perform σ')
  deeper : ∀ {α : Type} {x : Watch α} {y : Exec α}, R x y → R (Watch.deeper σ x) (σ'.deeper y)
  inBlock : ∀ {α : Type} {x : Watch α} {y : Exec α}, R x y → R (Watch.inBlock x) (Exec.inBlock y)
  /-- Loops that are related as long as they have the same turns are related if each has its own. -/
  turns : ∀ {c : Watch Bool} {c' : Exec Bool} {x : Watch Flow} {y : Exec Flow},
    (∀ n, R (Watch.whileTrue σ c x n) (Exec.whileTrue c' y n)) →
    R (Watch.whileTrue σ c x σ.turns) (Exec.whileTrue c' y σ'.turns)

namespace Watch.Follows

variable {σ σ' : Setting} {nodes : List Expr} {names : List String} {R : ∀ {α : Type}, Watch α → Exec α → Prop}

section

variable (h : Follows σ σ' nodes names R)
include h

theorem map {α β : Type} {x : Watch α} {y : Exec α} (f : α → β) (hx : R x y) : R (f <$> x) (f <$> y) :=
  h.bind hx fun a => h.pure (f a)

theorem orReturn (flow : Flow) {next : Value → Watch Flow} {next' : Value → Exec Flow}
    (hn : ∀ v, R (next v) (next' v)) : R (Watch.orReturn flow next) (Exec.orReturn flow next') := by
  cases flow with
  | normal v => exact hn v
  | returned v => exact h.pure _

theorem forEach {body : Value → Watch Flow} {body' : Value → Exec Flow} (hb : ∀ v, R (body v) (body' v))
    (items : List Value) : R (Watch.forEach body items) (Exec.forEach body' items) := by
  induction items with
  | nil => exact h.pure _
  | cons v items ih =>
    unfold Watch.forEach Exec.forEach
    exact h.bind (hb v) fun flow => h.orReturn flow fun _ => ih

theorem whileTrue {c : Watch Bool} {c' : Exec Bool} {x : Watch Flow} {y : Exec Flow} (hc : R c c') (hx : R x y) :
    R (Watch.whileTrue σ c x σ.turns) (Exec.whileTrue c' y σ'.turns) := by
  refine h.turns fun turns => ?_
  induction turns with
  | zero => exact h.step .giveUp trivial
  | succ turns ih =>
    unfold Watch.whileTrue Exec.whileTrue
    refine h.bind hc fun holds => ?_
    cases holds with
    | true => exact h.bind hx fun flow => h.orReturn flow fun _ => ih
    | false => exact h.pure _

theorem logic (op : LogicOp) {x x' : Watch Bool} {y y' : Exec Bool} (hx : R x y) (hx' : R x' y') :
    R (Watch.logic op x x') (Setting.logic op y y') := by
  refine h.bind hx fun l => ?_
  cases op <;> cases l
  · exact h.pure _
  · exact h.map _ hx'
  · exact h.map _ hx'
  · exact h.pure _

theorem combine (op : AssignOp) {x x' : Watch Value} {y y' : Exec Value} (hx : R x y) (hx' : R x' y') :
    R (Watch.combine σ op x x') (σ'.combine op y y') := by
  cases op with
  | plain => exact hx'
  | compound op => exact h.bind hx fun old => h.bind hx' fun operand => h.step (.arith op old operand) trivial

theorem readPlace {x : Watch Value} {y : Exec Value} (hx : R x y) (p : Place) :
    R (Watch.readPlace σ x p) (σ'.readPlace y p) := by
  cases p with
  | name target => exact hx
  | property receiver name site => exact h.step (.getProperty receiver name site) trivial
  | index receiver position site => exact h.step (.getIndex receiver position site) trivial

end

/-! ## Expressions -/

/-- What counting does with the place and the old value. -/
theorem countAt (h : Follows σ σ' nodes names R) (op : StepOp) {target : Expr} (member : target ∈ nodes)
    {read : Watch Value} {read' : Exec Value} (hr : R read read')
    (placed : ∀ {β : Type} {f : Place → Watch β} {g : Place → Exec β}, (∀ p : Place, p.At target → R (f p) (g p)) →
      R (Watch.place σ target >>= f) (σ'.place target >>= g))
    (reads : ∀ i name, target = .declared i name → read' = σ'.deeper (.readName name)) :
    R (Watch.countAt σ op target (Watch.place σ target) read) (do
      let place ← σ'.place target
      let old ← σ'.readPlace read' place
      let new ← σ'.counted op target.type old
      σ'.writePlace new place
      return old) := by
  -- a step of a declared name is one action; otherwise the place is evaluated first
  by_cases plain : ∃ i name, target = .declared i name
  · obtain ⟨i, name, rfl⟩ := plain
    have counts := h.step (.countName op i.type name) ⟨i.span, member⟩
    rw [reads i name rfl]
    exact counts
  · have other : ∀ i name, target ≠ .declared i name := fun i name same => plain ⟨i, name, same⟩
    unfold Watch.countAt
    split
    · exact absurd rfl (other _ _)
    · refine placed fun p hp => h.bind (h.readPlace hr p) fun old => ?_
      exact h.step (.count op target.type old p) ⟨target, member, other, hp⟩

mutual

theorem value (h : Follows σ σ' nodes names R) (e : Expr) (he : e.parts ⊆ nodes) :
    R (Watch.value σ e) (σ'.value e) := by
  have operand (e' : Expr) (smaller : sizeOf e' < sizeOf e) (he' : e'.parts ⊆ nodes) :
      R (Watch.deeper σ (Watch.value σ e')) (σ'.deeper (σ'.value e')) := h.deeper (value h e' he')
  have inner : e.inner ⊆ nodes := List.Subset.trans (List.subset_cons_self _ _) he
  -- by recursion on the expression: both runs evaluate the parts in one order and then take one action
  cases e with
  | constant info v =>
    unfold Watch.value Setting.value
    exact h.pure _
  | declared info name =>
    unfold Watch.value Setting.value
    exact h.step (.readName name) trivial
  | input info name site =>
    unfold Watch.value Setting.value
    exact h.step (.readInput name site) trivial
  | this info =>
    unfold Watch.value Setting.value
    rw [h.root]
    exact h.pure _
  | classRef info c =>
    unfold Watch.value Setting.value
    exact h.pure _
  | staticField info c field =>
    unfold Watch.value Setting.value
    exact h.step (.staticField c field) trivial
  | property info receiver name site =>
    unfold Watch.value Setting.value
    refine h.bind (operand receiver (by simp +arith) inner) fun r => ?_
    exact h.step (.getProperty r name site) trivial
  | methodCall info receiver name args site =>
    unfold Watch.value Setting.value
    obtain ⟨first, rest⟩ := List.append_subset.1 inner
    refine h.bind (operand receiver (by simp +arith) first) fun r => h.bind (values h args rest) fun vs => ?_
    exact h.step (.callMethod r name vs site) trivial
  | functionCall info function args =>
    unfold Watch.value Setting.value
    exact h.bind (values h args inner) fun vs => h.step (.callFunction function vs) trivial
  | convert info v target =>
    unfold Watch.value Setting.value
    obtain ⟨left, right⟩ := List.append_subset.1 inner
    refine h.bind (operand v (by simp +arith) left) fun v => ?_
    exact h.bind (operand target (by simp +arith) right) fun target => h.step (.convertToClass v target) trivial
  | index info receiver position site =>
    unfold Watch.value Setting.value
    obtain ⟨left, right⟩ := List.append_subset.1 inner
    refine h.bind (operand receiver (by simp +arith) left) fun r => ?_
    exact h.bind (operand position (by simp +arith) right) fun i => h.step (.getIndex r i site) trivial
  | assign info target op v stored =>
    unfold Watch.value Setting.value
    obtain ⟨left, right⟩ := List.append_subset.1 inner
    have old := operand target (by simp +arith) left
    have new := operand v (by simp +arith) right
    refine place h target left fun p hp => h.bind (h.combine op (h.readPlace old p) new) fun new => ?_
    exact h.step (.assign new stored p) ⟨info, target, op, v, he List.mem_cons_self, left List.mem_cons_self, hp⟩
  | arith info op left right =>
    unfold Watch.value Setting.value
    obtain ⟨hl, hr⟩ := List.append_subset.1 inner
    refine h.bind (operand left (by simp +arith) hl) fun l => ?_
    exact h.bind (operand right (by simp +arith) hr) fun r => h.step (.arith op l r) trivial
  | logic info op left right =>
    unfold Watch.value Setting.value
    obtain ⟨hl, hr⟩ := List.append_subset.1 inner
    have l := h.bind (operand left (by simp +arith) hl) fun v => h.step (.truth v) trivial
    have r := h.bind (operand right (by simp +arith) hr) fun v => h.step (.truth v) trivial
    exact h.logic op l r
  | compare info op left right =>
    unfold Watch.value Setting.value
    obtain ⟨hl, hr⟩ := List.append_subset.1 inner
    refine h.bind (operand left (by simp +arith) hl) fun l => ?_
    exact h.bind (operand right (by simp +arith) hr) fun r => h.step (.compare op l r) trivial
  | unary info op e =>
    unfold Watch.value Setting.value
    exact h.bind (operand e (by simp +arith) inner) fun v => h.step (.unary op v) trivial
  | step info op target =>
    unfold Watch.value Setting.value
    refine h.countAt op (inner List.mem_cons_self) (operand target (by simp +arith) inner) (place h target inner) ?_
    rintro i name rfl
    rw [Setting.value]
  | cast info type e =>
    unfold Watch.value Setting.value
    exact h.bind (operand e (by simp +arith) inner) fun v => h.step (.fit v (some type)) trivial
  | conditional info cond thenBranch elseBranch =>
    unfold Watch.value Setting.value
    obtain ⟨head, last⟩ := List.append_subset.1 inner
    obtain ⟨first, second⟩ := List.append_subset.1 head
    refine h.bind (operand cond (by simp +arith) first) fun c => h.bind (h.step (.truth c) trivial) fun holds => ?_
    cases holds with
    | true => exact operand thenBranch (by simp +arith) second
    | false => exact operand elseBranch (by simp +arith) last
  | construct info c args chosen =>
    unfold Watch.value Setting.value
    exact h.bind (values h args inner) fun vs => h.step (.construct c vs chosen) trivial
  | newArray info item items =>
    unfold Watch.value Setting.value
    exact h.bind (values h items inner) fun vs => h.step (.newArray item vs) trivial
  | newSized info item length =>
    unfold Watch.value Setting.value
    exact h.bind (operand length (by simp +arith) inner) fun n => h.step (.newSized item n) trivial
  | inlineList info items =>
    unfold Watch.value Setting.value
    exact h.bind (values h items inner) fun vs => h.step (.newList vs) trivial
  | inlineMap info entries =>
    unfold Watch.value Setting.value
    exact h.bind (entryValues h entries inner) fun es => h.step (.newMap es) trivial
termination_by sizeOf e

/-- Places, and what comes behind them. -/
theorem place (h : Follows σ σ' nodes names R) (e : Expr) (he : e.parts ⊆ nodes) {β : Type} {f : Place → Watch β}
    {g : Place → Exec β} (next : ∀ p : Place, p.At e → R (f p) (g p)) :
    R (Watch.place σ e >>= f) (σ'.place e >>= g) := by
  have operand (e' : Expr) (smaller : sizeOf e' < sizeOf e) (he' : e'.parts ⊆ nodes) :
      R (Watch.deeper σ (Watch.value σ e')) (σ'.deeper (σ'.value e')) := h.deeper (value h e' he')
  have inner : e.inner ⊆ nodes := List.Subset.trans (List.subset_cons_self _ _) he
  cases e with
  | property info receiver name site =>
    unfold Watch.place Setting.place
    simp only [bind_assoc, pure_bind]
    exact h.bind (operand receiver (by simp +arith) inner) fun r => next _ trivial
  | index info receiver position site =>
    unfold Watch.place Setting.place
    obtain ⟨left, right⟩ := List.append_subset.1 inner
    simp only [bind_assoc, pure_bind]
    refine h.bind (operand receiver (by simp +arith) left) fun r => ?_
    exact h.bind (operand position (by simp +arith) right) fun i => next _ trivial
  | _ =>
    unfold Watch.place Setting.place
    simp only [pure_bind]
    exact next _ rfl
termination_by sizeOf e

theorem values (h : Follows σ σ' nodes names R) (es : List Expr) (he : Expr.partsAll es ⊆ nodes) :
    R (Watch.values σ es) (σ'.values es) := by
  cases es with
  | nil =>
    unfold Watch.values Setting.values
    exact h.pure _
  | cons e es =>
    unfold Watch.values Setting.values
    rw [Expr.partsAll_cons] at he
    obtain ⟨first, rest⟩ := List.append_subset.1 he
    refine h.bind (h.deeper (value h e first)) fun v => ?_
    exact h.bind (values h es rest) fun vs => h.pure _
termination_by sizeOf es

theorem entryValues (h : Follows σ σ' nodes names R) (entries : List (Expr × Expr))
    (he : Expr.partsEntries entries ⊆ nodes) : R (Watch.entryValues σ entries) (σ'.entryValues entries) := by
  match entries with
  | [] =>
    unfold Watch.entryValues Setting.entryValues
    exact h.pure _
  | (k, v) :: rest =>
    unfold Watch.entryValues Setting.entryValues
    rw [Expr.partsEntries_cons] at he
    obtain ⟨entry, others⟩ := List.append_subset.1 he
    obtain ⟨key, item⟩ := List.append_subset.1 entry
    refine h.bind (h.deeper (value h k key)) fun k => h.bind (h.deeper (value h v item)) fun v => ?_
    exact h.bind (entryValues h rest others) fun es => h.pure _
termination_by sizeOf entries

end

end Watch.Follows

end HostExpr
