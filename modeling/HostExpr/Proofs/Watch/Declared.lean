import HostExpr.Proofs.Call.Conversion
import HostExpr.Proofs.Engine.Calls
import HostExpr.Proofs.Typing.Declared
import HostExpr.Proofs.Watch.Bound
import HostExpr.Proofs.Watch.Run

/-!
# Declared variables keep their types

A variable that one top-level statement declares with a type is bound, from this declaration on, to null or to a value
that satisfies the type: before and behind every step of the run, and when it has come to its end, with a value or a
failure. What is assigned to the variable has been made to fit, and what is counted stays what it is.
-/

namespace HostExpr

open Typed

/-! ## Values of a type -/

/-- A name is bound, to null or to a value that satisfies the type. -/
def Classes.HoldsType (cs : Classes) (t : Ty) (bound : Option Value) : Prop :=
  ∃ v, bound = some v ∧ (v = .null ∨ cs.satisfies v t)

namespace Classes.HoldsType

variable {cs : Classes} {t : Ty} {v : Value}

theorem of_satisfies (h : cs.satisfies v t) : cs.HoldsType t (some v) := ⟨v, rfl, .inr h⟩

theorem satisfies_getD {bound : Option Value} (h : cs.HoldsType t bound) : cs.satisfies (bound.getD .null) t := by
  obtain ⟨v, rfl, rfl | fits⟩ := h
  · simp [Classes.satisfies, Value.isNull]
  · exact fits

end Classes.HoldsType

/-- What comes of adding 1 to a value, or of taking it away, is of the class of the value. -/
theorem ArithOp.proper_apply_one (w : World) (op : ArithOp) {old : Value} {t : Ty} (fits : w.classes.satisfies old t) :
    Act.Proper w (op.apply w.classes old (.int 1)) fun new => w.classes.satisfies new t := by
  have refused (cs : Classes) (symbol : String) (left right : Value) (name : String) :
      invalidOperands cs symbol left right ≠ .unboundInput name := RuntimeError.noConfusion
  unfold ArithOp.apply
  split
  · rename_i joined
    cases old with
    | str text =>
      refine (Act.Proper.quiet (Act.quiet_textOf _ _)).bind fun l _ => ?_
      exact (Act.Proper.quiet (Act.quiet_textOf _ _)).map fun r _ => fits
    | _ => cases joined.2
  · -- the second operand is of the narrowest kind, so that a number stays of the kind that it was
    unfold ArithOp.onNumbers
    cases old with
    | int i =>
      dsimp only
      cases op.onInts? i.toInt64 (Int32.toInt64 1) with
      | some n => exact .pure fits
      | none => exact .throw nofun
    | long l =>
      simp only [Value.isDouble, Value.toInt64?]
      cases op.onInts? l (Int32.toInt64 1) with
      | some n => exact .pure fits
      | none => exact .throw nofun
    | double d => exact .pure fits
    | _ => exact .throw (refused _ _ _ _)

/-! ## What is written -/

/-- What a computation on the store gives. -/
theorem Exec.gives_act {α : Type} {w : World} {a : Act α} {Q : α → Prop} (h : Act.Proper w a Q) {s s' : Running} {r : α}
    (given : Exec.act a s = (.ok r, s')) : Q r := by
  obtain ⟨-, -, -, -, gives⟩ := h s.store
  unfold Exec.act at given
  split at given
  · rename_i made
    cases given
    exact gives _ (by rw [made])
  · cases given

/-- What is stored into a variable of a type satisfies the type, if all parts take the name for such a variable. -/
theorem Setting.stores_of_uses {σ : Setting} {nodes : List Expr} {name : String} {t : Ty}
    (promised : σ.world.KeepsPromises) (uses : ∀ n ∈ nodes, n.Uses name t) :
    σ.Stores nodes name (σ.world.classes.HoldsType t) := by
  have converted {v r : Value} {s s' : Running} (h : σ.convert v t s = (.ok r, s')) :
      σ.world.classes.HoldsType t (some r) :=
    .of_satisfies (Exec.gives_act (σ.world.proper_convertTo t v) h promised)
  refine ⟨fun i j op e stored written v s r given => ?_, fun j known op bound has s r given => ?_, fun j site read => ?_⟩
  · obtain rfl : stored = some t := uses _ written j rfl
    exact converted (Prod.ext given rfl)
  · obtain rfl : j.type = t := uses _ known rfl
    obtain ⟨new, s₁, added, kept⟩ := Exec.of_bind_ok (Prod.ext given rfl)
    split at kept
    · exact converted kept
    · obtain ⟨rfl, -⟩ := Exec.of_pure_ok kept
      exact .of_satisfies (Exec.gives_act (op.arith.proper_apply_one σ.world has.satisfies_getD) added)
  · exact absurd rfl (uses _ read)

/-! ## Runs -/

theorem Running.invariant_bound (name : String) (P : Option Value → Prop) : Running.Invariant (Running.Bound name P) :=
  ⟨fun _ _ h => h.of_same rfl rfl, fun _ h => ⟨h.free, h.bound⟩, fun _ h => h.popped⟩

/-- The step declares the name, and succeeds. -/
def Moment.Declares (m : Moment) (σ : Setting) (name : String) : Prop :=
  (∃ declared v inBlock, m.action = .declare name declared v inBlock) ∧ ∃ r, (m.action.perform σ m.before).1 = .ok r

/-- From each step on that declares the name, what is bound to it holds the type. -/
structure Watched.Stands (σ : Setting) (name : String) (t : Ty) (r : Watched) : Prop where
  later : r.steps.Pairwise fun n m => m.Declares σ name →
    σ.world.classes.HoldsType t (n.before.bindings.get? name)
      ∧ σ.world.classes.HoldsType t ((n.after σ).bindings.get? name)
  last : ∀ m ∈ r.steps, m.Declares σ name → σ.world.classes.HoldsType t ((m.after σ).bindings.get? name)
    ∧ σ.world.classes.HoldsType t (r.state.bindings.get? name)

/-- The name is not declared yet, neither by a step nor in a block. -/
structure Watched.Undeclared (σ : Setting) (name : String) (r : Watched) : Prop where
  free : r.state.frames.lookup name = none
  steps : ∀ m ∈ r.steps, ¬ m.Declares σ name

namespace Watch

variable {σ : Setting} {nodes : List Expr} {names : List String} {name : String} {t : Ty} {r : Watched}

theorem stands_of_undeclared (h : ∀ m ∈ r.steps, ¬ m.Declares σ name) : r.Stands σ name t where
  later := List.pairwise_of_forall_mem_list fun _ _ m hm declares => absurd declares (h m hm)
  last m hm declares := absurd declares (h m hm)

/-- What declares other names only leaves the name undeclared. -/
theorem undeclared_of_follows (out : name ∉ names) {α : Type} {x : Watch α} {y : Exec α}
    (run : ∀ {R : ∀ {α : Type}, Watch α → Exec α → Prop}, Watch.Follows σ σ nodes names R → R x y)
    (h : r.Undeclared σ name) : (x r).2.Undeclared σ name := by
  have plain : σ.Stores nodes name fun _ => True :=
    ⟨fun _ _ _ _ _ _ _ _ _ _ => trivial, fun _ _ _ _ _ _ _ _ => trivial, fun _ _ _ _ => trivial⟩
  -- whatever is stored, no block comes to have the name
  have keeps := run (follows_keeps (Running.invariant_bound name fun _ => True) fun a within s hs =>
    (a.guards_perform plain out within s hs).1)
  obtain ⟨kept, new, taken, good⟩ := keeps r ⟨h.free, trivial⟩
  refine ⟨kept.free, fun m hm declares => ?_⟩
  rw [taken] at hm
  rcases List.mem_append.1 hm with hm | hm
  · obtain ⟨⟨declared, v, inBlock, same⟩, -⟩ := declares
    have within := (good m hm).1
    rw [same] at within
    exact out within
  · exact h.steps m hm declares

/-- Behind a declaration what is bound holds the type for as long as all parts take the name for such a variable. -/
theorem stands_of_follows (promised : σ.world.KeepsPromises) (uses : ∀ n ∈ nodes, n.Uses name t) (out : name ∉ names)
    {α : Type} {x : Watch α} {y : Exec α}
    (run : ∀ {R : ∀ {α : Type}, Watch α → Exec α → Prop}, Watch.Follows σ σ nodes names R → R x y)
    (h : r.Stands σ name t) (bound : r.state.Bound name (σ.world.classes.HoldsType t)) :
    (x r).2.Stands σ name t := by
  -- every action within these nodes keeps the type of what the name is bound to
  have keeps := run (follows_keeps (Running.invariant_bound name _) fun a within s hs =>
    (a.guards_perform (Setting.stores_of_uses promised uses) out within s hs).1)
  obtain ⟨kept, new, taken, good⟩ := keeps r bound
  have holds (n : Moment) (hn : n ∈ new) := (good n hn).2
  constructor
  · -- a new step is behind a declaration or not, and the type is held behind it in any case
    rw [taken]
    refine List.pairwise_append.2 ⟨?_, h.later, fun n hn m _ _ => ⟨(holds n hn).1.bound, (holds n hn).2.bound⟩⟩
    exact List.pairwise_of_forall_mem_list fun n hn m _ _ => ⟨(holds n hn).1.bound, (holds n hn).2.bound⟩
  · intro m hm declares
    rw [taken] at hm
    rcases List.mem_append.1 hm with hm | hm
    · exact ⟨(holds m hm).2.bound, kept.bound⟩
    · exact ⟨(h.last m hm declares).1, kept.bound⟩

/-- Where the name is declared with a value that has been made to fit, it is bound to the value. -/
theorem bound_of_declare (promised : σ.world.KeepsPromises) {v : Value} {s s' : Running} {flow : Flow}
    (free : s.frames.lookup name = none)
    (h : (Action.declare name (some t) v false).perform σ s = (.ok flow, s')) :
    s'.Bound name (σ.world.classes.HoldsType t) := by
  obtain ⟨fitted, s₁, converted, declared⟩ := Exec.of_bind_ok h
  have kept : (σ.convert? v (some t) s).2.Bound name fun _ => True :=
    (σ.guards_convert? v (some t) s ⟨free, trivial⟩).1
  rw [converted] at kept
  obtain ⟨_, s₂, bound, done⟩ := Exec.of_bind_ok declared
  cases bound
  cases done
  refine ⟨kept.free, ?_⟩
  show σ.world.classes.HoldsType t ((s₁.bindings.put name fitted).get? name)
  rw [Table.get?_put, if_pos rfl]
  exact .of_satisfies (Exec.gives_act (σ.world.proper_convertTo t v) converted promised)

/-- The initial value declares nothing; if the declaration succeeds, the name is bound to what holds the type. -/
theorem stands_declareName (promised : σ.world.KeepsPromises) (init : Option Expr) (h : r.Undeclared σ name) :
    (declareName σ name (some t) init false r).2.Stands σ name t
      ∧ ∀ flow, (declareName σ name (some t) init false r).1 = .ok flow →
        (declareName σ name (some t) init false r).2.state.Bound name (σ.world.classes.HoldsType t) := by
  -- the initial value is computed before the name is declared
  have before : (value? σ init r).2.Undeclared σ name :=
    undeclared_of_follows List.not_mem_nil (fun h => h.value? init (List.Subset.refl _)) h
  have run : declareName σ name (some t) init false r = ExceptT.bindCont
    (fun v => step σ (.declare name (some t) v false)) (value? σ init r).1 (value? σ init r).2 := rfl
  rw [run]
  generalize (value? σ init r).2 = given at before ⊢
  cases (value? σ init r).1 with
  | error stop => exact ⟨stands_of_undeclared before.steps, nofun⟩
  | ok v =>
    let m : Moment := ⟨.declare name (some t) v false, given.state⟩
    have steps : (step σ m.action given).2.steps = m :: given.steps := rfl
    show (step σ m.action given).2.Stands σ name t ∧ _
    have bound : ∀ flow : Flow, (m.action.perform σ m.before).1 = .ok flow →
        (m.after σ).Bound name (σ.world.classes.HoldsType t) :=
      fun flow succeeded => bound_of_declare promised before.free (Prod.ext succeeded rfl)
    refine ⟨⟨?_, fun n hn declares => ?_⟩, bound⟩
    · rw [steps]
      refine List.pairwise_cons.2 ⟨fun n hn declares => absurd declares (before.steps n hn), ?_⟩
      exact (stands_of_undeclared before.steps).later
    · rw [steps] at hn
      rcases List.mem_cons.1 hn with rfl | hn
      · obtain ⟨-, flow, succeeded⟩ := declares
        exact ⟨(bound flow succeeded).bound, (bound flow succeeded).bound⟩
      · exact absurd declares (before.steps n hn)

/-- The statement that declares the name for the whole program. -/
theorem stands_declaration (promised : σ.world.KeepsPromises) (info : Info) (init : Option Expr)
    (h : r.Undeclared σ name) :
    (deeper σ (run σ (.declare info name (some t) init false)) r).2.Stands σ name t
      ∧ ∀ flow, (deeper σ (run σ (.declare info name (some t) init false)) r).1 = .ok flow →
        (deeper σ (run σ (.declare info name (some t) init false)) r).2.state.Bound name
          (σ.world.classes.HoldsType t) := by
  unfold deeper nested
  split
  · exact ⟨stands_of_undeclared h.steps, nofun⟩
  · have inner : Watched.Undeclared σ name { r with state := { r.state with depth := r.state.depth + 1 } } :=
      ⟨h.free, h.steps⟩
    obtain ⟨stands, bound⟩ := stands_declareName promised init inner
    rw [run]
    exact ⟨⟨stands.later, stands.last⟩, fun flow succeeded => (bound flow succeeded).of_same rfl rfl⟩

/-- A row of statements of which just one declares the name, for the whole program. -/
theorem stands_runAll (promised : σ.world.KeepsPromises) {pre post : List Stmt} {info : Info} {init : Option Expr}
    (uses : ∀ n ∈ Stmt.partsAll post, n.Uses name t) (once : name ∉ Stmt.declaredNamesAll (pre ++ post))
    (h : r.Undeclared σ name) :
    (runAll σ (pre ++ .declare info name (some t) init false :: post) .null r).2.Stands σ name t := by
  rw [Stmt.declaredNamesAll_append, List.mem_append, not_or] at once
  have before := undeclared_of_follows once.1 (x := runAll σ pre .null)
    (fun h => h.runAll pre (List.Subset.refl _) (List.Subset.refl _) .null) h
  let rest (flow : Flow) : Watch Flow :=
    orReturn flow fun v => runAll σ (.declare info name (some t) init false :: post) v
  rw [runAll_append]
  show (ExceptT.bindCont rest (runAll σ pre .null r).1 (runAll σ pre .null r).2).2.Stands σ name t
  generalize (runAll σ pre .null r).2 = reached at before ⊢
  rcases (runAll σ pre .null r).1 with stop | v | v
  · exact stands_of_undeclared before.steps
  · -- the declaration has its turn
    obtain ⟨stands, bound⟩ := stands_declaration promised info init before
    let next (flow : Flow) : Watch Flow := orReturn flow fun v => runAll σ post v
    show (runAll σ (.declare info name (some t) init false :: post) v reached).2.Stands σ name t
    rw [runAll.eq_2]
    show (ExceptT.bindCont next (deeper σ (run σ (.declare info name (some t) init false)) reached).1
      (deeper σ (run σ (.declare info name (some t) init false)) reached).2).2.Stands σ name t
    generalize deeper σ (run σ (.declare info name (some t) init false)) reached = declared at stands bound ⊢
    obtain ⟨outcome, behind⟩ := declared
    rcases outcome with stop | v | v
    · exact stands
    · exact stands_of_follows promised uses once.2 (x := runAll σ post v)
        (fun h => h.runAll post (List.Subset.refl _) (List.Subset.refl _) v) stands (bound _ rfl)
    · exact stands
  · exact stands_of_undeclared before.steps

end Watch

/-! ## Executions -/

/-- A compiled expression stays a program, or a setter. -/
theorem Expression.Used.isSetter_eq {w : World} {x y : Expression} (h : x.Used w y) : y.isSetter = x.isSetter := by
  induction h with
  | unused => rfl
  | executed earlier store bindings strategy limits root ih =>
    rw [← ih]
    unfold Workspace.executeWith
    split <;> rfl
  | stored earlier store bindings strategy root v ih =>
    rw [← ih]
    unfold Workspace.executeSet
    split <;> rfl

/-- **A declared variable keeps its type.** Suppose that the host's conversions give what they promise, and that a
compiled program declares a name with a type of which something is known, at the top level, and nowhere else. Then in
every execution, from the step on in which the declaration succeeds, the name is bound to null or to a value that
satisfies the type: behind this step, before and behind each later one, and in what the execution leaves behind,
whatever it comes to. -/
theorem Engine.holdsType_of_declared {e : Engine} {source : String} {config : Config} {x y : Expression}
    (h : e.compile source false config = .ok x) (used : x.Used e.world y) (promised : e.world.KeepsPromises)
    {pre post : List Stmt} {info : Info} {name : String} {t : Ty} {init : Option Expr}
    (body : x.program.body = pre ++ .declare info name (some t) init false :: post) (static : t.isDynamic = false)
    (once : name ∉ Stmt.declaredNamesAll (pre ++ post)) (store : Store) (bindings : Table Value) (strategy : Strategy)
    (limits : Limits) (root : Value) :
    let ws : Workspace := ⟨store, bindings, y⟩
    let run := ws.watch e.world strategy limits root
    let σ := Workspace.setting e.world strategy limits root
    ws.executeWith e.world strategy limits root = ws.settle (run.1, run.2.state)
      ∧ ∀ later m earlier, run.2.steps = later ++ m :: earlier → m.Declares σ name →
        e.world.classes.HoldsType t ((m.after σ).bindings.get? name)
          ∧ (∀ n ∈ later, e.world.classes.HoldsType t (n.before.bindings.get? name)
            ∧ e.world.classes.HoldsType t ((n.after σ).bindings.get? name))
          ∧ e.world.classes.HoldsType t (run.2.state.bindings.get? name) := by
  intro ws run σ
  have program : y.isSetter = false := by
    rw [used.isSetter_eq]
    obtain ⟨tree, program, env, -, -, rfl⟩ := compile_ok h
    rfl
  refine ⟨ws.executeWith_eq_watched program e.world strategy limits root, fun later m earlier steps declares => ?_⟩
  -- the name is declared in one place, so that no later part gives it another type
  have behind : name ∉ Stmt.declaredNamesAll post := by
    rw [Stmt.declaredNamesAll_append, List.mem_append, not_or] at once
    exact once.2
  have stands : run.2.Stands σ name t := by
    let start : Watched := .start (.start store bindings y.sites)
    have fresh : start.Undeclared σ name := ⟨rfl, fun m hm => by cases hm⟩
    have ran : (Watch.runAll σ y.program.body .null start).2.Stands σ name t := by
      rw [(kept_of_used h used).1, body]
      exact Watch.stands_runAll promised (uses_of_compile h body static behind) once fresh
    show (Watch.runProgram σ y.program start).2.Stands σ name t
    rw [Watch.runProgram_snd]
    exact ran
  have last := stands.last m (by rw [steps]; simp) declares
  -- a moment stands for all later ones, which the order of the steps gives pairwise
  have pairs := stands.later
  rw [steps] at pairs
  exact ⟨last.1, fun n hn => (List.pairwise_append.1 pairs).2.2 n hn m List.mem_cons_self declares, last.2⟩

/-! ## A number that is counted up -/

/-- A program that gives a number by a text, joins another text to it and counts it up. -/
def countsOn : String := "Integer n = '1'; n += '2'; n++; n"

/-- The program declares a variable as an integer and does not declare it again. -/
def declaresCount : List Typed.Stmt → Bool
  | .declare _ "n" (some t) _ false :: post => t = .integer && !(Stmt.declaredNamesAll post).contains "n"
  | _ => false

/-- There are six steps, and the first one declares the variable. -/
def declaresFirst (σ : Setting) : List Moment → Bool
  | [_, _, _, _, _, ⟨.declare "n" declared v inBlock, before⟩] =>
    ((Action.declare "n" declared v inBlock).perform σ before).1.isOk
  | _ => false

theorem eq_of_declaresCount {body : List Typed.Stmt} (h : declaresCount body) : ∃ info init post,
    body = [] ++ .declare info "n" (some .integer) init false :: post ∧ "n" ∉ Stmt.declaredNamesAll post := by
  unfold declaresCount at h
  split at h
  next info t init post =>
    obtain ⟨type, once⟩ := Bool.and_eq_true_iff.1 h
    obtain rfl := of_decide_eq_true type
    exact ⟨info, init, post, rfl, by simpa using once⟩
  next => cases h

theorem eq_of_declaresFirst {σ : Setting} {steps : List Moment} (h : declaresFirst σ steps) : ∃ later m,
    steps = later ++ [m] ∧ m.Declares σ "n" ∧ later.length = 5 := by
  unfold declaresFirst at h
  split at h
  next n₅ n₄ n₃ n₂ n₁ declared v inBlock before =>
    refine ⟨[n₅, n₄, n₃, n₂, n₁], ⟨.declare "n" declared v inBlock, before⟩, rfl, ⟨⟨declared, v, inBlock, rfl⟩, ?_⟩, rfl⟩
    cases succeeded : ((Action.declare "n" declared v inBlock).perform σ before).1 with
    | ok r => exact ⟨r, rfl⟩
    | error stop =>
      rw [succeeded] at h
      cases h
  next => cases h

/-- The variable is declared in the first step, and holds an integer behind each of the five later ones. -/
theorem holdsType_of_declared_countsOn :
    ∃ x, pointEngine.compile countsOn false .default = .ok x
      ∧ let ws : Workspace := ⟨.ofHeap .empty, [], x⟩
        let σ := Workspace.setting pointHost .universal .default .null
        (∃ later m, (ws.watch pointHost .universal .default .null).2.steps = later ++ [m]
          ∧ m.Declares σ "n" ∧ later.length = 5
          ∧ ∀ n ∈ later, pointsAndBoxes.HoldsType .integer ((n.after σ).bindings.get? "n"))
        ∧ pointsAndBoxes.HoldsType .integer
          ((ws.executeWith pointHost .universal .default .null).2.bindings.get? "n") := by
  let σ := Workspace.setting pointHost .universal .default .null
  have found : (pointEngine.compile countsOn false .default).toOption.any fun x =>
      declaresCount x.program.body
        && declaresFirst σ ((⟨.ofHeap .empty, [], x⟩ : Workspace).watch pointHost .universal .default .null).2.steps := by
    decide +kernel
  obtain ⟨x, hx, checked⟩ := exists_ok_of_any found
  obtain ⟨shape, taken⟩ := Bool.and_eq_true_iff.1 checked
  obtain ⟨info, init, post, body, once⟩ := eq_of_declaresCount shape
  obtain ⟨later, m, steps, declares, five⟩ := eq_of_declaresFirst taken
  obtain ⟨outcome, kept⟩ := Engine.holdsType_of_declared hx .unused keepsPromises_pointHost body rfl once
    (.ofHeap .empty) [] .universal .default .null
  obtain ⟨-, behind, last⟩ := kept later m [] steps declares
  refine ⟨x, hx, ⟨later, m, steps, declares, five, fun n hn => (behind n hn).2⟩, ?_⟩
  let holds (result : Except EngineError Value × Workspace) : Prop :=
    pointsAndBoxes.HoldsType .integer (result.2.bindings.get? "n")
  exact (congrArg holds outcome).mpr last

end HostExpr
