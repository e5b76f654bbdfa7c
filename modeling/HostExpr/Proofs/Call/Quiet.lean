import HostExpr.World.Conversion

/-!
# Computations that ask nothing of the outside

What a program does on the heap, with texts and with the operations of the built-in classes leaves the trace as it is
and never fails for an input without a value. Only `World.invoke` and `World.runConverter` add to the trace, one event
each: `trace_invoke`.
-/

namespace HostExpr

namespace Act

variable {α β : Type}

/-- The computation adds nothing to the trace and does not report an input without a value. -/
def Quiet (x : Act α) : Prop := ∀ s, (x s).2.trace = s.trace ∧ ∀ name, (x s).1 ≠ .error (.unboundInput name)

namespace Quiet

@[simp]
theorem pure (a : α) : Quiet (Pure.pure a) := by
  intro s
  exact ⟨rfl, fun name h => by cases h⟩

theorem throw {e : RuntimeError} (h : ∀ name, e ≠ .unboundInput name) : Quiet (throw e : Act α) := by
  intro s
  refine ⟨rfl, fun name he => ?_⟩
  exact h name (Except.error.inj he)

/-- One computation after the other. -/
@[simp]
theorem bind {x : Act α} {f : α → Act β} (hx : Quiet x) (hf : ∀ a, Quiet (f a)) : Quiet (x >>= f) := by
  intro s
  have first := hx s
  show (ExceptT.bindCont f (x s).1 (x s).2).2.trace = s.trace
    ∧ ∀ name, (ExceptT.bindCont f (x s).1 (x s).2).1 ≠ .error (.unboundInput name)
  cases hr : (x s).1 with
  | ok a =>
    have second := hf a (x s).2
    exact ⟨second.1.trans first.1, second.2⟩
  | error e =>
    refine ⟨first.1, fun name he => first.2 name ?_⟩
    rw [hr, Except.error.inj he]

@[simp]
theorem map {x : Act α} (f : α → β) (hx : Quiet x) : Quiet (f <$> x) := hx.bind fun a => .pure (f a)

@[simp]
theorem ite {c : Prop} [Decidable c] {x y : Act α} (hx : Quiet x) (hy : Quiet y) : Quiet (if c then x else y) := by
  split
  · exact hx
  · exact hy

@[simp]
theorem forM {f : α → Act PUnit} (hf : ∀ a, Quiet (f a)) (as : List α) : Quiet (as.forM f) := by
  induction as with
  | nil => exact .pure _
  | cons a as ih => exact (hf a).bind fun _ => ih

end Quiet

/-! ## The heap -/

@[simp]
theorem quiet_heap : Quiet heap := fun _ => ⟨rfl, fun _ h => by cases h⟩

@[simp]
theorem quiet_modifyHeap (f : Heap → Heap) : Quiet (modifyHeap f) := fun _ => ⟨rfl, fun _ h => by cases h⟩

@[simp]
theorem quiet_alloc (cell : Cell) : Quiet (alloc cell) := fun _ => ⟨rfl, fun _ h => by cases h⟩

@[simp]
theorem quiet_newList (items : List Value) : Quiet (newList items) := .map _ (quiet_alloc _)

@[simp]
theorem quiet_newArray (item : Ty) (items : List Value) : Quiet (newArray item items) := .map _ (quiet_alloc _)

@[simp]
theorem quiet_items (h : Handle) : Quiet (items h) := quiet_heap.bind fun _ => .pure _

@[simp]
theorem quiet_entries (h : Handle) : Quiet (entries h) := quiet_heap.bind fun _ => .pure _

@[simp]
theorem quiet_setItems (h : Handle) (vs : List Value) : Quiet (setItems h vs) := quiet_modifyHeap _

@[simp]
theorem quiet_setEntries (h : Handle) (es : Entries) : Quiet (setEntries h es) := quiet_modifyHeap _

@[simp]
theorem quiet_newSlots (cs : Classes) (c : ClassRef) : Quiet (newSlots cs c) := quiet_alloc _

@[simp]
theorem quiet_setSlot (h : Handle) (slot : Nat) (v : Value) : Quiet (setSlot h slot v) :=
  (quiet_items h).bind fun _ => quiet_setItems h _

@[simp]
theorem quiet_slot (h : Handle) (slot : Nat) : Quiet (Act.slot h slot) := (quiet_items h).bind fun _ => .pure _

@[simp]
theorem quiet_ofAnswer (answer : Option α) : Quiet (ofAnswer answer) := by
  cases answer with
  | none => exact .throw nofun
  | some a => exact .pure a

@[simp]
theorem quiet_equal (v w : Value) : Quiet (equal v w) := quiet_heap.bind fun _ => quiet_ofAnswer _

@[simp]
theorem quiet_mapGet? (h : Handle) (key : Value) : Quiet (mapGet? h key) := quiet_heap.bind fun _ => quiet_ofAnswer _

@[simp]
theorem quiet_mapPut (h : Handle) (key value : Value) : Quiet (mapPut h key value) :=
  quiet_heap.bind fun _ => (quiet_ofAnswer _).bind fun _ => (quiet_setEntries h _).bind fun _ => .pure _

@[simp]
theorem quiet_mapRemove (h : Handle) (key : Value) : Quiet (mapRemove h key) :=
  quiet_heap.bind fun _ => (quiet_ofAnswer _).bind fun _ => (quiet_setEntries h _).bind fun _ => .pure _

@[simp]
theorem quiet_newMap (es : Entries) : Quiet (newMap es) := by
  refine (quiet_alloc _).bind fun h => .bind (.forM (fun entry => ?_) es) fun _ => .pure _
  exact (quiet_mapPut h entry.1 entry.2).bind fun _ => .pure _

@[simp]
theorem quiet_text (cs : Classes) (v : Value) : Quiet (text cs v) := by
  refine quiet_heap.bind fun heap => ?_
  split
  · exact .pure _
  · exact .throw nofun

@[simp]
theorem quiet_textOf (cs : Classes) (v : Value) : Quiet (textOf cs v) := by
  unfold textOf
  split
  · exact .pure _
  · exact quiet_text cs _

end Act

open Act

/-! ## The operations of the built-in classes -/

section

variable (cs : Classes)

@[simp]
theorem quiet_checkedIndex (index : Int32) (length : Nat) : Quiet (checkedIndex index length) :=
  .ite (.pure _) (.throw nofun)

@[simp]
theorem quiet_intArg (method : String) (v : Value) : Quiet (intArg cs method v) := by
  unfold intArg
  split
  · exact .pure _
  · exact .throw nofun

@[simp]
theorem quiet_strArg (method : String) (v : Value) : Quiet (strArg cs method v) := by
  unfold strArg
  split
  · exact .pure _
  · exact .throw nofun

@[simp]
theorem quiet_listArg (method : String) (v : Value) : Quiet (listArg cs method v) := by
  unfold listArg
  split
  · exact .pure _
  · exact .throw nofun

@[simp]
theorem quiet_mapArg (method : String) (v : Value) : Quiet (mapArg cs method v) := by
  unfold mapArg
  split
  · exact .pure _
  · exact .throw nofun

@[simp]
theorem quiet_parsed (method s : String) (read : List Char → Option Value) : Quiet (parsed method s read) := by
  unfold parsed
  split
  · exact .pure _
  · exact .throw nofun

namespace Intrinsic

variable (this : Value) (args : List Value) (op : Intrinsic)

theorem quiet_runString : Quiet (op.runString cs this args) := by
  cases op with
  | stringEqualsIgnoreCase =>
    refine (quiet_strArg cs _ this).bind fun s => ?_
    split
    · exact .pure _
    · exact .pure _
  | stringSubstring =>
    refine (quiet_strArg cs _ this).bind fun s => (quiet_intArg cs _ _).bind fun start => ?_
    refine (quiet_intArg cs _ _).bind fun stop => ?_
    exact .ite (.throw nofun) (.pure _)
  | stringSubstringFrom =>
    refine (quiet_strArg cs _ this).bind fun s => (quiet_intArg cs _ _).bind fun start => ?_
    exact .ite (.pure _) (.map _ (quiet_checkedIndex _ _))
  | _ =>
    simp only [runString]
    repeat' with_reducible refine .bind ?_ fun _ => ?_
    all_goals simp

theorem quiet_runNumber : Quiet (op.runNumber cs this args) := by
  cases op with
  | numberIntValue =>
    simp only [runNumber]
    split <;> first | exact .pure _ | exact .throw nofun
  | numberLongValue =>
    simp only [runNumber]
    split <;> first | exact .pure _ | exact .throw nofun
  | numberDoubleValue =>
    simp only [runNumber]
    split
    · exact .pure _
    · exact .throw nofun
  | _ => simp [runNumber]

theorem quiet_runList : Quiet (op.runList cs this args) := by
  cases op with
  | arrayLength =>
    simp only [runList]
    split
    · exact (quiet_items _).bind fun _ => .pure _
    · exact .throw nofun
  | _ =>
    simp only [runList]
    repeat' with_reducible refine .bind ?_ fun _ => ?_
    all_goals simp

theorem quiet_runMap : Quiet (op.runMap cs this args) := by
  cases op <;> simp [runMap]

/-- The operations of the built-in classes are quiet. -/
theorem quiet_run : Quiet (op.run cs this args) := by
  unfold run
  split
  · exact (quiet_textOf cs this).bind fun _ => .pure _
  · exact .map _ (quiet_equal _ _)
  · split
    · exact .pure _
    · exact .throw nofun
  · split
    · exact .pure _
    · exact .throw nofun
  all_goals first
    | exact quiet_runString cs this args _
    | exact quiet_runNumber cs this args _
    | exact quiet_runList cs this args _
    | exact quiet_runMap cs this args _

end Intrinsic

end

/-! ## Requests -/

namespace World

variable (w : World)

/-- Code itself adds nothing to the trace. -/
theorem trace_run (code : Code) (receiver : Value) (args : List Value) (s : Store) :
    (w.run receiver args code s).2.trace = s.trace := by
  cases code with
  | intrinsic op =>
    rw [run]
    exact (op.quiet_run w.classes receiver args s).1
  | initSlots slots =>
    cases receiver with
    | cls c =>
      rw [run]
      refine ((quiet_newSlots w.classes c).bind (fun h => .bind (.forM (fun entry => ?_) _) fun _ => .pure _) s).1
      obtain ⟨slot, v⟩ := entry
      exact quiet_setSlot h slot v
    | _ =>
      have refused : Quiet (throw (.notCallable "constructor without class") : Act Value) :=
        .throw fun _ => RuntimeError.noConfusion
      exact (refused s).1
  | host body =>
    unfold run liftHeap
    dsimp only
    split <;> rfl

/-- A request to run code adds one event to the trace: the code, what it was run on, and what came of it. -/
theorem trace_invoke (code : Code) (receiver : Value) (args : List Value) (s : Store) :
    (w.invoke code receiver args s).2.trace
      = .ran code receiver args (w.invoke code receiver args s).1 :: s.trace := by
  have silent := w.trace_run code receiver args s
  unfold invoke
  generalize w.run receiver args code s = result at silent ⊢
  obtain ⟨outcome, s'⟩ := result
  dsimp only at silent ⊢
  rw [silent]

end World

end HostExpr
