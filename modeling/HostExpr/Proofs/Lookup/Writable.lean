import HostExpr.Proofs.Lookup.Readable
import HostExpr.Proofs.Typing.Ruled
import HostExpr.Proofs.Typing.Parts

/-!
# Writing a property, as analyzed and as run

Under strong typing an analysis checks that a property can be written where it is written out on the left of a plain
assignment or of a setter. Compound assignments, counting up and down, and members of the root that are written as a
name go past that check: all that is known of them is that the member can be read. `writable_of_compile` says both of
every write in a compiled program.
-/

namespace HostExpr

open Typed

namespace Classes

/-- Instances of a class have something to write under a name: a property that takes values or, if there is no property
of the name, a method that stands for writing it. -/
def canWrite (cs : Classes) (c : ClassRef) (name : String) : Bool :=
  match cs.property? c name with
  | some p => p.isWritable
  | none => (cs.setterMethod? c name).isSome

end Classes

/-! ## Writing in a run -/

/-- Where there is nothing to write, every write to an instance of a host class fails for want of the member, through
whatever site, and nothing is asked of the host. -/
theorem Site.Bound.set_misses {w : World} {site : Site} {name : String} (h : site.Bound w.classes (.property name))
    {n : Nat} (hw : w.classes.canWrite (.host n) name = false) (default : Strategy) (handle : Handle) (v : Value)
    (s : Store) :
    (site.set w default (.object handle (.host n)) v).1 s
      = (.error (w.noSuchMember (.object handle (.host n)) name), s) := by
  -- a bound site does what a look-up of the member does, so that only this is left
  rw [h.set_eq default]
  have dispatched : w.setProperty (.object handle (.host n)) name v = w.setMember (.object handle (.host n)) name v :=
    rfl
  have own : (Value.object handle (.host n)).classRef = .host n := rfl
  rw [dispatched]
  unfold World.setMember
  rw [own]
  unfold Classes.canWrite at hw
  cases hp : w.classes.property? (.host n) name with
  | some p =>
    rw [hp] at hw
    dsimp only
    unfold Property.isWritable at hw
    cases hk : p.kind with
    | slot i => simp [hk] at hw
    | computed get set =>
      cases set with
      | some set => simp [hk] at hw
      | none => rfl
  | none =>
    rw [hp] at hw
    cases hs : w.classes.setterMethod? (.host n) name with
    | some setter => simp [hs] at hw
    | none => rfl

/-! ## Writes in a program -/

/-- The target that an expression stores into, and whether the old value is read for it. -/
def Typed.Expr.write? : Expr → Option (Expr × Bool)
  | .assign _ target .plain _ _ => some (target, false)
  | .assign _ target (.compound _) _ _ | .step _ _ target => some (target, true)
  | _ => none

/-- The target of a setter. -/
def Typed.Program.set? (p : Program) : Option Expr :=
  match p.body with
  | [.expr target] => some target
  | _ => none

/-- The targets that a compiled expression stores into, each with whether the old value is read for it. -/
def Expression.writes (x : Expression) : List (Expr × Bool) :=
  (Stmt.partsAll x.program.body).filterMap Expr.write? ++
    if x.isSetter then (x.program.set?.map (·, false)).toList else []

/-! ## Writes in an analysis -/

namespace Context

open Analysis

variable {ctx : Context} {config : Config}

/-- Under strong typing a property that is typed by its receiver can be read, unless the receiver says nothing. -/
theorem isSome_readType?_of_propertyType (strong : config.strong) {receiver type : Ty} {name : String} {span : Span}
    (h : Answers config (ctx.propertyType receiver name span) type) (hobject : receiver.cls ≠ .builtin .object)
    (hnull : receiver.cls ≠ .builtin .null) (hmap : receiver.cls ≠ .builtin .map) :
    (ctx.readType? receiver name).isSome := by
  obtain ⟨a, b, under, typed⟩ := h
  cases yields_propertyType under typed with
  | unknown h => exact absurd h (not_or.2 ⟨hobject, hnull⟩)
  | entry h => exact absurd h hmap
  | length h hn =>
    rw [isSome_readType?_iff ctx h, hn]
    left
    rfl
  | member h => rw [h, Option.isSome_some]
  | missing weak =>
    rw [strong] at weak
    cases weak

/-- Under strong typing the check for members lets a property of a receiver pass only if it can be written. -/
theorem canWrite_of_checkWritable (strong : config.strong) {i : Info} {receiver : Expr} {name : String} {site : Nat}
    {span : Span} (h : Answers config (ctx.checkWritable (.property i receiver name site) span) ())
    (hobject : receiver.type.cls ≠ .builtin .object) (hmap : receiver.type.cls ≠ .builtin .map) :
    ctx.classes.canWrite receiver.type.cls name := by
  obtain ⟨a, b, under, checked⟩ := h
  have writable : ctx.isWritable receiver.type name := by
    unfold checkWritable at checked
    dsimp only at checked
    rw [bind_eq_bindCont, strong_apply under, strong] at checked
    cases hw : ctx.isWritable receiver.type name with
    | true => rfl
    | false =>
      rw [hw] at checked
      cases checked
  unfold isWritable at writable
  have static : (receiver.type.isDynamic || receiver.type.cls = .builtin .map) = false := by
    simp [Ty.isDynamic, ClassRef.isDynamic, hobject, hmap]
  rw [static] at writable
  exact writable

/-- The target of a plain assignment can be written, unless it is a member of the root that is written as a name. -/
theorem canWrite_of_takes (strong : config.strong) {i : Info} {receiver : Expr} {name : String} {site : Nat}
    {value : Ty} {stored : Option Ty} (h : ctx.Takes config (.property i receiver name site) value stored)
    (plain : (Expr.property i receiver name site).isBare = false)
    (hobject : receiver.type.cls ≠ .builtin .object) (hmap : receiver.type.cls ≠ .builtin .map) :
    ctx.classes.canWrite receiver.type.cls name := by
  cases h with
  | written checked => exact canWrite_of_checkWritable strong checked hobject hmap
  | bare bare =>
    rw [plain] at bare
    cases bare

/-- Under strong typing a property of a program can be read, unless its receiver says nothing. -/
theorem isSome_readType?_of_rule (strong : config.strong) {i : Info} {receiver : Expr} {name : String} {site : Nat}
    (root : ctx.Rule config receiver) (h : ctx.Rule config (.property i receiver name site))
    (hobject : receiver.type.cls ≠ .builtin .object) (hnull : receiver.type.cls ≠ .builtin .null)
    (hmap : receiver.type.cls ≠ .builtin .map) : (ctx.readType? receiver.type name).isSome := by
  rcases h with typed | ⟨bare, known⟩
  · exact isSome_readType?_of_propertyType strong typed hobject hnull hmap
  · -- a member of the root is typed by the root
    cases receiver with
    | this j =>
      obtain ⟨type, given, read⟩ := Option.bind_eq_some_iff.1 known
      have whole : (Expr.this j).type = type := by
        have : j.type = config.context?.getD .object := root
        rw [given] at this
        exact this
      rw [whole, read]
      rfl
    | _ => cases bare

end Context

/-! ## Writes in compiled programs -/

/-- The target of a write is part of the program. -/
theorem Expression.mem_parts_of_mem_writes {x : Expression} {target : Expr} {rereads : Bool}
    (h : (target, rereads) ∈ x.writes) : target ∈ Stmt.partsAll x.program.body := by
  rcases List.mem_append.1 h with h | h
  · obtain ⟨e, he, hw⟩ := List.mem_filterMap.1 h
    -- the writes of a program are those of its assignments and steps, and for a setter that of its target
    have operand : target ∈ e.parts := by
      unfold Expr.write? at hw
      split at hw <;> cases hw
      · exact List.mem_cons_of_mem _ (List.mem_append_left _ List.mem_cons_self)
      · exact List.mem_cons_of_mem _ (List.mem_append_left _ List.mem_cons_self)
      · exact List.mem_cons_of_mem _ List.mem_cons_self
    exact Stmt.parts_subset_all _ he operand
  · split at h
    · obtain ⟨t, ht, h⟩ := Option.map_eq_some_iff.1 (Option.mem_toList.1 h)
      cases h
      unfold Program.set? at ht
      split at ht <;> cases ht
      rename_i body
      rw [body]
      exact List.mem_append_left _ List.mem_cons_self
    · cases h

/-- A target that is stored into without reading it is what an assignment takes. -/
theorem Expression.takes_of_mem_writes {x : Expression} {ctx : Context} {config : Config}
    (rules : ∀ e ∈ Stmt.partsAll x.program.body, ctx.Rule config e)
    (sets : x.isSetter → ctx.SetsTarget config x.program) {target : Expr} (h : (target, false) ∈ x.writes) :
    ∃ value stored, ctx.Takes config target value stored := by
  rcases List.mem_append.1 h with h | h
  · obtain ⟨e, he, hw⟩ := List.mem_filterMap.1 h
    unfold Expr.write? at hw
    split at hw <;> cases hw
    rename_i info value stored
    have rule : ctx.Rule config (.assign info target .plain value stored) := rules _ he
    exact ⟨value.type, stored, rule.2⟩
  · split at h
    · rename_i isSetter
      obtain ⟨t, ht, h⟩ := Option.map_eq_some_iff.1 (Option.mem_toList.1 h)
      cases h
      obtain ⟨target', stored, body, takes⟩ := sets isSetter
      unfold Program.set? at ht
      rw [body] at ht
      cases ht
      exact ⟨.object, stored, takes⟩
    · cases h

/-- **Certified writes.** In a program or setter compiled under strong typing, let a property of a receiver of a class
other than `Object` and `Map` be the target of an assignment, of a compound assignment, of `++` or `--`, or of the
setter. If it is written out as a member of its receiver and stored into without reading it first, then there is
something to write under its name in the class of the receiver. Of the targets whose old value is read, and of members
of the root that are written as a name, all that is certified is that they can be read, if the receiver is not just
null. -/
theorem Engine.canWrite_of_compile {e : Engine} {source : String} {isSetter : Bool} {config : Config} {x : Expression}
    (h : e.compile source isSetter config = .ok x) (strong : config.strong) {i : Info} {receiver : Expr}
    {name : String} {site : Nat} {rereads : Bool} (written : (.property i receiver name site, rereads) ∈ x.writes)
    (hobject : receiver.type.cls ≠ .builtin .object) (hmap : receiver.type.cls ≠ .builtin .map) :
    (rereads = false → (Expr.property i receiver name site).isBare = false →
      e.world.classes.canWrite receiver.type.cls name)
    ∧ (receiver.type.cls ≠ .builtin .null →
      e.world.classes.finds receiver.type.cls name ∨ e.world.classes.hidesGetter receiver.type.cls name) := by
  obtain ⟨rules, sets⟩ := rule_of_compile h
  have setter : x.isSetter → (e.context source).SetsTarget config x.program := by
    obtain ⟨body, program, env, -, -, rfl⟩ := compile_ok h
    exact sets
  -- both parts look at the target as a node of the body
  have part := Expression.mem_parts_of_mem_writes written
  constructor
  · rintro rfl plain
    obtain ⟨value, stored, takes⟩ := Expression.takes_of_mem_writes rules setter written
    exact Context.canWrite_of_takes strong takes plain hobject hmap
  · intro hnull
    have operand : receiver ∈ Stmt.partsAll x.program.body :=
      Stmt.parts_subset_all _ part (List.mem_cons_of_mem _ List.mem_cons_self)
    have read := Context.isSome_readType?_of_rule strong (rules _ operand) (rules _ part) hobject hnull hmap
    exact ((e.context source).isSome_readType?_iff rfl name).1 read

/-! ## A property that can only be read -/

/-- A class of boxes with a field and a property that can only be read. -/
def readOnlyBoxes : Classes where
  defs := [{ ClassDef.bare "Box" none (some (.builtin .object)) with
    properties := [⟨"n", .raw (.builtin .integer), .slot 0⟩,
      ⟨"x", .raw (.builtin .integer), .computed (some (.host 0)) none⟩]
    slotDefaults := [.int 0] }]

/-- The engine of a host with these boxes. -/
def readOnlyEngine : Engine := ⟨{ World.bare with classes := readOnlyBoxes }, .builtin, [], .default⟩

/-- A box as the input and as the root, under strong typing. -/
def readOnlyConfig : Config :=
  { Config.default with strong := true, inputs := [("b", .raw (.host 0))], context? := some (.raw (.host 0)) }

/-- A write of the field of a box, written out. -/
def writesField : Expr × Bool → Bool
  | (.property i receiver name site, rereads) => name = "n" && rereads = false
    && !(Expr.property i receiver name site).isBare && receiver.type = .raw (.host 0)
  | _ => false

/-- The field is written, and certified to be written; the property is written in three ways, and none of them asks
whether it can be. -/
theorem canWrite_of_compile_readOnlyBoxes :
    ∃ x i receiver site, readOnlyEngine.compile "b.n = 1; b.x += 1; b.x++; x = 2" false readOnlyConfig = .ok x
      ∧ (.property i receiver "n" site, false) ∈ x.writes
      ∧ readOnlyBoxes.canWrite receiver.type.cls "n"
      ∧ (x.writes.filterMap fun
          | (.property i receiver "x" site, rereads) =>
            some (receiver.type.cls, rereads, (Expr.property i receiver "x" site).isBare)
          | _ => none) = [(.host 0, true, false), (.host 0, true, false), (.host 0, false, true)]
      ∧ readOnlyBoxes.canWrite (.host 0) "x" = false := by
  have found : (readOnlyEngine.compile "b.n = 1; b.x += 1; b.x++; x = 2" false readOnlyConfig).toOption.any fun x =>
      x.writes.any writesField
      && (x.writes.filterMap fun
          | (.property i receiver "x" site, rereads) =>
            some (receiver.type.cls, rereads, (Expr.property i receiver "x" site).isBare)
          | _ => none) = [(.host 0, true, false), (.host 0, true, false), (.host 0, false, true)] := by
    decide +kernel
  obtain ⟨x, hx, found⟩ := exists_ok_of_any found
  obtain ⟨field, others⟩ := Bool.and_eq_true_iff.1 found
  obtain ⟨⟨target, rereads⟩, written, shape⟩ := List.any_eq_true.1 field
  cases target with
  | property i receiver name site =>
    simp only [writesField, Bool.and_eq_true, decide_eq_true_eq, Bool.not_eq_true'] at shape
    obtain ⟨⟨⟨rfl, rfl⟩, plain⟩, box⟩ := shape
    have host : receiver.type.cls = .host 0 := by rw [box]; rfl
    have certified := Engine.canWrite_of_compile hx rfl written (by rw [host]; decide) (by rw [host]; decide)
    exact ⟨x, i, receiver, site, hx, written, certified.1 rfl plain, of_decide_eq_true others, by decide⟩
  | _ => cases shape

end HostExpr
