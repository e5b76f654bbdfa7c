import HostExpr.Proofs.Execution.Steps
import HostExpr.Proofs.Scope.Agreement
import HostExpr.Proofs.Typing.Ruled

/-!
# Static fields in the place of accesses

Where the static type of a receiver is that of a class with a static field of the name, analysis puts the field in the
place of the access, and drops the receiver. `foldsAt_iff_of_compile` says when this means the same: if the receiver is
the name of a class, always; and otherwise, if to evaluate it changes nothing and what it evaluates to shows the very
value of the field under the name. The static type promises neither: a variable that holds a class may hold another one
by now, and the receiver may be an assignment.
-/

namespace HostExpr

open Typed

/-! ## Access and field -/

/-- Two states have the same bindings, frames and heap. -/
structure Running.SameData (s t : Running) : Prop where
  bindings : s.bindings = t.bindings
  frames : s.frames = t.frames
  heap : s.store.heap = t.store.heap

namespace Setting

variable (σ : Setting)

/-- Evaluate an expression, and read a member of its value. -/
def memberOf (receiver : Expr) (name : String) : Exec Value := do
  let v ← σ.value receiver
  .act (σ.world.getProperty v name)

/-- In a state a node means the same as the access to a member: it has the same outcome, and leaves the same bindings,
frames and heap. -/
def FoldsAt (node receiver : Expr) (name : String) (s : Running) : Prop :=
  (σ.value node s).1 = (σ.memberOf receiver name s).1 ∧ (σ.value node s).2.SameData (σ.memberOf receiver name s).2

end Setting

/-- From a store a member of a value is read as another value, and leaves a heap behind. -/
def World.Shows (w : World) (v : Value) (name : String) (u : Value) (store : Store) (heap : Heap) : Prop :=
  ∃ after, w.getProperty v name store = (.ok u, after) ∧ after.heap = heap

/-- A class shows what its static field of the name holds. -/
theorem World.shows_cls_iff {w : World} {d : ClassRef} {name : String} {g : StaticField}
    (hg : w.classes.staticField? d name = some g) (u : Value) (store : Store) (heap : Heap) :
    w.Shows (.cls d) name u store heap ↔ g.value = u ∧ store.heap = heap := by
  have read : w.getProperty (.cls d) name store = (.ok g.value, store) := by
    unfold World.getProperty
    dsimp only
    rw [hg]
    rfl
  unfold World.Shows
  rw [read]
  constructor
  · rintro ⟨after, shown, rfl⟩
    cases shown
    exact ⟨rfl, rfl⟩
  · rintro ⟨rfl, rfl⟩
    exact ⟨store, rfl, rfl⟩

namespace Context

/-- An access that analysis replaces by a static field: the receiver is known to be the class, and the class has the
field. -/
theorem staticField_of_property {ctx : Context} {receiver : Expr} {name field : String} {span : Span}
    {a b : AnalysisState} {i : Info} {c : ClassRef}
    (made : ctx.property receiver name span a = (.ok (.staticField i c field), b)) :
    field = name ∧ receiver.classMeant? = some c
      ∧ ∃ f, ctx.classes.staticField? c name = some f ∧ i = ⟨f.type, span⟩ := by
  have found : Analysis.Yields (ctx.property receiver name span) a fun r _ => r = .staticField i c field →
      field = name ∧ receiver.classMeant? = some c
        ∧ ∃ f, ctx.classes.staticField? c name = some f ∧ i = ⟨f.type, span⟩ := by
    unfold property
    dsimp only
    split
    · rename_i d f static
      refine .bind fun _ _ _ => .pure fun same => ?_
      cases same
      obtain ⟨d, meant, static⟩ := Option.bind_eq_some_iff.1 static
      obtain ⟨g, hg, static⟩ := Option.bind_eq_some_iff.1 static
      cases static
      exact ⟨rfl, meant, _, hg, rfl⟩
    · -- every other way to analyze the access makes a node of another kind
      exact .bind fun _ _ _ => .bind fun _ _ _ => .bind fun _ _ _ => .pure nofun
  exact found made rfl

end Context

namespace Setting

variable {σ : Setting} {i : Info} {c : ClassRef} {name : String} {f : StaticField}

/-- The field is read without effect. -/
theorem value_staticField (hf : σ.world.classes.staticField? c name = some f) (s : Running) :
    σ.value (.staticField i c name) s = (.ok f.value, s) := by
  show σ.staticField c name s = _
  unfold staticField
  rw [hf]
  rfl

/-- What an access comes to: its receiver comes to a value, which shows the outcome. -/
theorem memberOf_eq_ok_iff {receiver : Expr} {u : Value} {s t : Running} :
    σ.memberOf receiver name s = (.ok u, t) ↔ ∃ v s' store, σ.value receiver s = (.ok v, s')
      ∧ σ.world.getProperty v name s'.store = (.ok u, store) ∧ t = { s' with store := store } := by
  -- an access is the receiver followed by the look-up of the member, so it succeeds just if both do
  constructor
  · intro h
    obtain ⟨v, s', hv, read⟩ := Exec.of_bind_ok h
    refine ⟨v, s', (σ.world.getProperty v name s'.store).2, hv, ?_⟩
    unfold Exec.act at read
    split at read
    · rename_i r store shown
      cases read
      rw [shown]
      exact ⟨rfl, rfl⟩
    · cases read
  · rintro ⟨v, s', store, hv, shown, rfl⟩
    unfold memberOf
    rw [Exec.bind_of_ok hv]
    unfold Exec.act
    rw [shown]

/-- When a field means the same as an access: the receiver comes to a value without a change of bindings and frames,
and the value shows what the field holds, with the heap as it was at first. -/
theorem foldsAt_iff {receiver : Expr} (hf : σ.world.classes.staticField? c name = some f) (s : Running) :
    σ.FoldsAt (.staticField i c name) receiver name s ↔ ∃ v s', σ.value receiver s = (.ok v, s')
      ∧ s.bindings = s'.bindings ∧ s.frames = s'.frames ∧ σ.world.Shows v name f.value s'.store s.store.heap := by
  unfold FoldsAt
  rw [value_staticField hf]
  constructor
  · rintro ⟨outcome, data⟩
    have read : σ.memberOf receiver name s = (.ok f.value, (σ.memberOf receiver name s).2) := Prod.ext outcome.symm rfl
    obtain ⟨v, s', store, hv, shown, after⟩ := memberOf_eq_ok_iff.1 read
    rw [after] at data
    exact ⟨v, s', hv, data.bindings, data.frames, store, shown, data.heap.symm⟩
  · rintro ⟨v, s', hv, bindings, frames, store, shown, heap⟩
    have read := memberOf_eq_ok_iff.2 ⟨v, s', store, hv, shown, rfl⟩
    rw [read]
    exact ⟨rfl, bindings, frames, heap.symm⟩

end Setting

/-! ## Compiled programs -/

/-- **Static fields in the place of accesses.** Each static field in a compiled program or setter is put there for an
access to a member. Whatever this access is, the field means the same in a state just if the receiver comes to a value
there without a change of bindings and frames, and the value shows what the field holds, with the heap as it was. For a
receiver that is the name of a class this is always so; if the receiver comes to some class with a static field of the
name, it is so just if the receiver changes nothing and the two fields hold the same. -/
theorem Engine.foldsAt_iff_of_compile {e : Engine} {source : String} {isSetter : Bool} {config : Config}
    {x : Expression} (h : e.compile source isSetter config = .ok x) {i : Info} {c : ClassRef} {name : String}
    (part : .staticField i c name ∈ Stmt.partsAll x.program.body) {σ : Setting} (hσ : σ.world = e.world) :
    let node : Expr := .staticField i c name
    let For := fun r => Analysis.Answers config ((e.context source).property r name i.span) node
    (∃ receiver, For receiver) ∧ ∃ f, e.world.classes.staticField? c name = some f ∧ i.type = f.type
      ∧ ∀ receiver, For receiver →
        (∀ s, σ.FoldsAt node receiver name s ↔ ∃ v s', σ.value receiver s = (.ok v, s')
          ∧ s.bindings = s'.bindings ∧ s.frames = s'.frames ∧ e.world.Shows v name f.value s'.store s.store.heap)
        ∧ (∀ j d, receiver = .classRef j d → ∀ s, σ.FoldsAt node receiver name s)
        ∧ ∀ d g s s', σ.value receiver s = (.ok (.cls d), s') → e.world.classes.staticField? d name = some g →
          (σ.FoldsAt node receiver name s ↔ s.SameData s' ∧ g.value = f.value) := by
  intro node For
  obtain ⟨receiver, made⟩ := (rule_of_compile h).1 _ part
  obtain ⟨a, b, -, made'⟩ := id made
  obtain ⟨-, -, f, hf, typed⟩ := Context.staticField_of_property made'
  have known : σ.world.classes.staticField? c name = some f := by
    rw [hσ]
    exact hf
  refine ⟨⟨receiver, made⟩, f, hf, by rw [typed], fun receiver made => ?_⟩
  -- the two special cases below are read off this one
  have exact_condition (s : Running) : σ.FoldsAt (.staticField i c name) receiver name s ↔ ∃ v s',
      σ.value receiver s = (.ok v, s') ∧ s.bindings = s'.bindings ∧ s.frames = s'.frames
        ∧ σ.world.Shows v name f.value s'.store s.store.heap := Setting.foldsAt_iff known s
  rw [hσ] at exact_condition
  refine ⟨exact_condition, ?_, ?_⟩
  · -- the name of a class gives the class and does nothing else
    rintro j d rfl s
    obtain ⟨a, b, -, made⟩ := made
    obtain ⟨-, meant, -⟩ := Context.staticField_of_property made
    cases meant
    exact (exact_condition s).2 ⟨.cls c, s, rfl, rfl, rfl, (World.shows_cls_iff hf _ _ _).2 ⟨rfl, rfl⟩⟩
  · intro d g s s' hv hg
    rw [exact_condition]
    constructor
    · rintro ⟨v, s₁, hv₁, bindings, frames, shown⟩
      rw [hv] at hv₁
      cases hv₁
      obtain ⟨same, heap⟩ := (World.shows_cls_iff hg _ _ _).1 shown
      exact ⟨⟨bindings, frames, heap.symm⟩, same⟩
    · rintro ⟨data, same⟩
      exact ⟨_, s', hv, data.bindings, data.frames, (World.shows_cls_iff hg _ _ _).2 ⟨same, data.heap.symm⟩⟩

/-! ## A class that a variable holds -/

/-- Two classes with a static field of the same name. -/
def flagClasses : Classes where
  defs := [{ ClassDef.bare "A" none (some (.builtin .object)) with
      staticFields := [⟨"F", .raw (.builtin .integer), .int 1⟩] },
    { ClassDef.bare "B" none (some (.builtin .object)) with
      staticFields := [⟨"F", .raw (.builtin .integer), .int 2⟩] }]

/-- A host with these classes. -/
def flagWorld : World := { World.bare with classes := flagClasses }

/-- The engine of the host. -/
def flagEngine : Engine where
  world := flagWorld
  directory := (Directory.builtin.register flagClasses (.host 0)).register flagClasses (.host 1)
  functions := []
  limits := .default

/-- A setting for short runs in this host. -/
def flagSetting : Setting := { Setting.bare with world := flagWorld }

/-- A program that reads the field of a class, and the field of another class which it assigns to a variable of the
first. -/
def readsFlags : String := "x = A; A.F; (x = B).F"

/-- An assignment of the second class to the variable. -/
def assignsB (span : Span) : Expr :=
  .assign ⟨.classOf (.host 0), span⟩ (.declared ⟨.classOf (.host 0), span⟩ "x") .plain
    (.classRef ⟨.classOf (.host 1), span⟩ (.host 1)) (some (.classOf (.host 0)))

/-- The field of the first class. -/
def readsFlag (span : Span) : Expr := .staticField ⟨.raw (.builtin .integer), span⟩ (.host 0) "F"

/-- Analysis puts the field in the place of an access to what has the type of the first class. -/
theorem answers_readsFlag {r : Expr} (hr : r.classMeant? = some (.host 0)) (span : Span) :
    Analysis.Answers .default ((flagEngine.context readsFlags).property r "F" span) (readsFlag span) := by
  let start : AnalysisState := .ofEnvironment (.ofConfig .default)
  refine ⟨start, ((flagEngine.context readsFlags).property r "F" span start).2, ⟨rfl, rfl, rfl⟩, Prod.ext ?_ rfl⟩
  unfold Context.property
  rw [hr]
  rfl

/-- The program ends with two accesses that analysis has replaced by the field of the first class. -/
def readsFlagTwice (x : Expression) : Bool :=
  match x.program.body with
  | [_, .expr (.staticField i (.host 0) "F"), .expr (.staticField j (.host 0) "F")] =>
    i.type = .raw (.builtin .integer) && j.type = .raw (.builtin .integer)
  | _ => false

/-- Both accesses are replaced by the field of the first class. The one that names this class means the same in every
state; the one that assigns the other class does not where the variable holds the first one. -/
theorem foldsAt_iff_of_compile_readsFlags :
    ∃ x s t, flagEngine.compile readsFlags false .default = .ok x
      ∧ readsFlag s ∈ Stmt.partsAll x.program.body ∧ readsFlag t ∈ Stmt.partsAll x.program.body
      ∧ (∀ state, flagSetting.FoldsAt (readsFlag s) (.classRef ⟨.classOf (.host 0), s⟩ (.host 0)) "F" state)
      ∧ ¬ flagSetting.FoldsAt (readsFlag t) (assignsB t) "F" (.start (.ofHeap .empty) [("x", .cls (.host 0))] #[]) := by
  have found : (flagEngine.compile readsFlags false .default).toOption.any readsFlagTwice := by
    decide +kernel
  obtain ⟨x, hx, shape⟩ := exists_ok_of_any found
  unfold readsFlagTwice at shape
  split at shape
  · rename_i first i j body
    obtain ⟨ht, hu⟩ := Bool.and_eq_true_iff.1 shape
    obtain ⟨_, s⟩ := i
    obtain ⟨_, t⟩ := j
    cases of_decide_eq_true ht
    cases of_decide_eq_true hu
    have named : readsFlag s ∈ Stmt.partsAll x.program.body := by
      rw [body, Stmt.partsAll, Stmt.partsAll]
      exact List.mem_append_right _ List.mem_cons_self
    have assigned : readsFlag t ∈ Stmt.partsAll x.program.body := by
      rw [body, Stmt.partsAll, Stmt.partsAll]
      exact List.mem_append_right _ (List.mem_append_right _ List.mem_cons_self)
    refine ⟨x, s, t, hx, named, assigned, fun state => ?_, fun same => ?_⟩
    · have same_world : flagSetting.world = flagEngine.world := rfl
      obtain ⟨-, f, hf, -, each⟩ := Engine.foldsAt_iff_of_compile hx named same_world
      exact (each _ (answers_readsFlag rfl s)).2.1 _ _ rfl state
    · have same_world : flagSetting.world = flagEngine.world := rfl
      obtain ⟨-, f, hf, -, each⟩ := Engine.foldsAt_iff_of_compile hx assigned same_world
      obtain ⟨g, hg⟩ : ∃ g, flagWorld.classes.staticField? (.host 1) "F" = some g := ⟨_, rfl⟩
      have evaluated : flagSetting.value (assignsB t) (.start (.ofHeap .empty) [("x", .cls (.host 0))] #[])
        = (.ok (.cls (.host 1)), .start (.ofHeap .empty) [("x", .cls (.host 1))] #[]) := rfl
      obtain ⟨data, -⟩ := ((each _ (answers_readsFlag rfl t)).2.2 _ g _ _ evaluated hg).1 same
      -- the variable holds the other class by then
      cases data.bindings
  · cases shape

end HostExpr
