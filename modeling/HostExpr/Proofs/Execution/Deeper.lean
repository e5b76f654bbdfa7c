import HostExpr.Proofs.Execution.Sunk
import HostExpr.Proofs.Typing.Parts

/-!
# Expressions one level deeper

Each expression with its call sites numbered higher comes to the same one level deeper, and keeps the binding of a name
that none of its parts has. The same holds for the place that it names as a target.
-/

namespace HostExpr

open Typed

namespace Setting

open Exec

variable (σ : Setting) {k : Nat} {p : String} {u : Value}

mutual

/-- The value of an expression. -/
theorem sinks_value (e : Expr) (other : e.Lacks p) : Sinks k p u id (σ.value e) (σ.value (e.shifted k)) := by
  have operand (e' : Expr) (smaller : sizeOf e' < sizeOf e) (other' : ∀ n ∈ e'.parts, n.named? ≠ some p) :
      Sinks k p u id (σ.deeper (σ.value e')) (σ.deeper (σ.value (e'.shifted k))) := .nested _ (sinks_value e' other')
  have inner : ∀ n ∈ e.inner, n.named? ≠ some p := (List.forall_mem_cons.1 other).2
  -- by recursion on the expression: the moved one does the same at sites further on, one level deeper
  cases e with
  | constant info v =>
    unfold Expr.shifted value
    exact .pure (f := id) _
  | declared info name =>
    unfold Expr.shifted value
    exact Sunk.readName name
  | input info name site =>
    unfold Expr.shifted value
    exact σ.sinks_readInput name site
  | this info =>
    unfold Expr.shifted value
    exact .pure (f := id) _
  | classRef info c =>
    unfold Expr.shifted value
    exact .pure (f := id) _
  | staticField info c field =>
    unfold Expr.shifted value
    exact σ.sunk_staticField c field
  | property info receiver name site =>
    unfold Expr.shifted value
    exact .bind (operand receiver (by simp +arith) inner) fun r => .atSite _ _ _
  | methodCall info receiver name args site =>
    unfold Expr.shifted value
    obtain ⟨first, rest⟩ := List.forall_mem_append.1 inner
    refine .bind (operand receiver (by simp +arith) first) fun r => ?_
    exact .bind (sinks_values args rest) fun vs => .atSite _ _ _
  | functionCall info function args =>
    unfold Expr.shifted value
    exact .bind (sinks_values args inner) fun vs => σ.sunk_callFunction function vs
  | convert info v target =>
    unfold Expr.shifted value
    obtain ⟨left, right⟩ := List.forall_mem_append.1 inner
    refine .bind (operand v (by simp +arith) left) fun v => ?_
    exact .bind (operand target (by simp +arith) right) fun target => σ.sunk_convertToClass v target
  | index info receiver position site =>
    unfold Expr.shifted value
    obtain ⟨left, right⟩ := List.forall_mem_append.1 inner
    refine .bind (operand receiver (by simp +arith) left) fun r => ?_
    exact .bind (operand position (by simp +arith) right) fun i => .atSite _ _ _
  | assign info target op v stored =>
    unfold Expr.shifted value
    obtain ⟨left, right⟩ := List.forall_mem_append.1 inner
    have old := operand target (by simp +arith) left
    have new := operand v (by simp +arith) right
    refine sinks_place target left fun place lacks => ?_
    refine .bind (σ.sinks_combine op (σ.sinks_readPlace old place) new) fun new => ?_
    refine .bind (σ.sunk_convert? new stored) fun new => ?_
    exact .bind (σ.sinks_writePlace new lacks) fun _ => .pure (f := id) _
  | arith info op left right =>
    unfold Expr.shifted value
    obtain ⟨hl, hr⟩ := List.forall_mem_append.1 inner
    refine .bind (operand left (by simp +arith) hl) fun l => ?_
    exact .bind (operand right (by simp +arith) hr) fun r => .act _
  | logic info op left right =>
    unfold Expr.shifted value
    obtain ⟨hl, hr⟩ := List.forall_mem_append.1 inner
    have truth {x y : Exec Value} (h : Sinks k p u id x y) : Sinks k p u id (x >>= σ.truth) (y >>= σ.truth) :=
      h.bind fun v => .act (σ.world.truth v)
    exact sinks_logic op (truth (operand left (by simp +arith) hl)) (truth (operand right (by simp +arith) hr))
  | compare info op left right =>
    unfold Expr.shifted value
    obtain ⟨hl, hr⟩ := List.forall_mem_append.1 inner
    refine .bind (operand left (by simp +arith) hl) fun l => ?_
    exact .bind (operand right (by simp +arith) hr) fun r => .map _ (.act _)
  | unary info op e =>
    unfold Expr.shifted value
    exact .bind (operand e (by simp +arith) inner) fun v => σ.sunk_unary op v
  | step info op target =>
    unfold Expr.shifted value
    rw [Expr.type_shifted]
    refine sinks_place target inner fun place lacks => ?_
    refine .bind (σ.sinks_readPlace (operand target (by simp +arith) inner) place) fun old => ?_
    refine .bind (σ.sunk_counted op target.type old) fun new => ?_
    exact .bind (σ.sinks_writePlace new lacks) fun _ => .pure (f := id) _
  | cast info type e =>
    unfold Expr.shifted value
    exact .bind (operand e (by simp +arith) inner) fun v => .act _
  | conditional info cond thenBranch elseBranch =>
    unfold Expr.shifted value
    obtain ⟨head, last⟩ := List.forall_mem_append.1 inner
    obtain ⟨first, second⟩ := List.forall_mem_append.1 head
    refine .bind (operand cond (by simp +arith) first) fun c => .bind (.act _) fun holds => ?_
    exact .ite (operand thenBranch (by simp +arith) second) (operand elseBranch (by simp +arith) last)
  | construct info c args chosen =>
    unfold Expr.shifted value
    exact .bind (sinks_values args inner) fun vs => .act _
  | newArray info item items =>
    unfold Expr.shifted value
    exact .bind (sinks_values items inner) fun vs => .act _
  | newSized info item length =>
    unfold Expr.shifted value
    exact .bind (operand length (by simp +arith) inner) fun n => σ.sunk_newSized item n
  | inlineList info items =>
    unfold Expr.shifted value
    exact .bind (sinks_values items inner) fun vs => .act _
  | inlineMap info entries =>
    unfold Expr.shifted value
    exact .bind (sinks_entryValues entries inner) fun es => .act _
termination_by sizeOf e

/-- The place that an expression names, and what comes behind it. -/
theorem sinks_place (e : Expr) (other : e.Lacks p) {α β : Type} {f : α → β} {next : Place → Exec α}
    {next' : Place → Exec β}
    (hn : ∀ place : Place, place.Lacks p → Sinks k p u f (next place) (next' (place.shifted k))) :
    Sinks k p u f (σ.place e >>= next) (σ.place (e.shifted k) >>= next') := by
  have operand (e' : Expr) (smaller : sizeOf e' < sizeOf e) (other' : ∀ n ∈ e'.parts, n.named? ≠ some p) :
      Sinks k p u id (σ.deeper (σ.value e')) (σ.deeper (σ.value (e'.shifted k))) := .nested _ (sinks_value e' other')
  have inner : ∀ n ∈ e.inner, n.named? ≠ some p := (List.forall_mem_cons.1 other).2
  -- a place is a receiver with what it is asked for; anything else is a name, which needs no evaluation
  cases e with
  | property info receiver name site =>
    unfold Expr.shifted place
    simp only [bind_assoc, pure_bind]
    exact .bind (operand receiver (by simp +arith) inner) fun r => hn (.property r name site) trivial
  | index info receiver position site =>
    unfold Expr.shifted place
    obtain ⟨left, right⟩ := List.forall_mem_append.1 inner
    simp only [bind_assoc, pure_bind]
    refine .bind (operand receiver (by simp +arith) left) fun r => ?_
    exact .bind (operand position (by simp +arith) right) fun i => hn (.index r i site) trivial
  | _ =>
    have named := hn (.name _) other
    unfold Expr.shifted place
    simp only [pure_bind]
    exact named
termination_by sizeOf e

/-- The values of expressions in a row. -/
theorem sinks_values (es : List Expr) (other : ∀ n ∈ Expr.partsAll es, n.named? ≠ some p) :
    Sinks k p u id (σ.values es) (σ.values (Expr.shiftedAll k es)) := by
  cases es with
  | nil =>
    unfold Expr.shiftedAll values
    exact .pure (f := id) _
  | cons e es =>
    unfold Expr.shiftedAll values
    rw [Expr.partsAll_cons] at other
    obtain ⟨first, rest⟩ := List.forall_mem_append.1 other
    refine .bind (.nested _ (sinks_value e first)) fun v => ?_
    exact .bind (sinks_values es rest) fun vs => .pure (f := id) _
termination_by sizeOf es

/-- The keys and values of the entries of a map. -/
theorem sinks_entryValues (entries : List (Expr × Expr))
    (other : ∀ n ∈ Expr.partsEntries entries, n.named? ≠ some p) :
    Sinks k p u id (σ.entryValues entries) (σ.entryValues (Expr.shiftedEntries k entries)) := by
  match entries with
  | [] =>
    unfold Expr.shiftedEntries entryValues
    exact .pure (f := id) _
  | (key, item) :: rest =>
    unfold Expr.shiftedEntries entryValues
    rw [Expr.partsEntries_cons] at other
    obtain ⟨entry, others⟩ := List.forall_mem_append.1 other
    obtain ⟨first, second⟩ := List.forall_mem_append.1 entry
    refine .bind (.nested _ (sinks_value key first)) fun key => ?_
    refine .bind (.nested _ (sinks_value item second)) fun item => ?_
    exact .bind (sinks_entryValues rest others) fun es => .pure (f := id) _
termination_by sizeOf entries

end

end Setting

end HostExpr
