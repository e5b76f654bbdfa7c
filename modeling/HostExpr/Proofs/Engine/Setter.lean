import HostExpr.Proofs.Engine.Calls
import HostExpr.Proofs.Execution.Assignment
import HostExpr.Proofs.Typing.Shifting

/-!
# Setters and assignments

A setter for a target and a program that assigns a name to it are analyzed alike: the call sites of the target come
behind that of the name. So to assign a value is to store it through the setter, but for the order in which the value is
made to fit and the target is evaluated: `setter_assigns_of_compile`.
-/

namespace HostExpr

open Typed

/-! ## Analysis -/

namespace Context

variable {ctx : Context} {target : Syntax.Expr} {config : Config} {program : Program} {env : Environment}

/-- What a setter is made of: its target, and the type that this stores. -/
theorem of_analyze_setter (h : ctx.analyze true [.expr target] (.ofConfig config) = (.ok program, env)) :
    ∃ t stored b, ctx.assignedTarget target (ctx.expr target none) .object (.ofEnvironment (.ofConfig config))
        = (.ok (t, stored), b)
      ∧ program = ⟨[.expr t], stored.getD .object, b.nextSite⟩ ∧ env = b.env := by
  have run : ctx.analyze true [.expr target] (.ofConfig config)
      = ((ctx.setter [.expr target] (.ofEnvironment (.ofConfig config))).1,
        (ctx.setter [.expr target] (.ofEnvironment (.ofConfig config))).2.env) := rfl
  obtain ⟨analyzed, left⟩ := Prod.mk.inj (run.symm.trans h)
  obtain ⟨⟨t, stored⟩, b, made, rest⟩ := Analysis.bind_ok (Prod.ext analyzed rfl)
  obtain ⟨given, same⟩ := Prod.mk.inj rest
  refine ⟨t, stored, b, made, (Except.ok.inj given).symm, ?_⟩
  rw [← left]
  exact congrArg AnalysisState.env same.symm

/-- A name that the caller supplies takes the first call site. -/
theorem ident_of_input {p : String} (input : config.inputs.get? p = some .object) (span : Span) :
    ctx.ident p span (.ofEnvironment (.ofConfig config))
      = (.ok (.input ⟨.object, span⟩ p 0), (AnalysisState.ofEnvironment (.ofConfig config)).shifted 1) := by
  have known (a : AnalysisState) : (get : Analysis AnalysisState) a = (.ok a, a) := rfl
  have looked : (AnalysisState.ofEnvironment (.ofConfig config)).env.inputs.get? p = some .object := input
  unfold ident
  rw [Analysis.bind_of_ok (known _), looked]
  rfl

/-- A value of unknown type may be coerced to any type. -/
theorem plainAssignment_object {value : Expr} (h : value.type = .object) (t : Expr) (stored : Option Ty) (span : Span)
    (a : AnalysisState) : ctx.plainAssignment value t stored span a
      = (.ok (.assign ⟨stored.getD .object, span⟩ t .plain value stored), a) := by
  unfold plainAssignment
  rw [h]
  cases stored with
  | none => rfl
  | some type =>
    have passes : ctx.checkCoercion .object type value.span a = (.ok (), a) := by
      unfold checkCoercion
      rw [Analysis.bind_of_ok (show Analysis.strong a = (.ok a.env.strong, a) from rfl)]
      rw [show Ty.object.isDynamic = true from rfl, Bool.not_true, Bool.and_false, Bool.false_and, Bool.false_and]
      rfl
    exact Analysis.bind_of_ok passes

/-- A program that is one expression is analyzed as this is. -/
theorem analyze_expr {e : Syntax.Expr} {r : Expr} {b : AnalysisState}
    (h : ctx.expr e none (.ofEnvironment (.ofConfig config)) = (.ok r, b)) :
    ∃ egress, ctx.analyze false [.expr e] (.ofConfig config) = (.ok ⟨[.expr r], egress, b.nextSite⟩, b.env) := by
  have one : ctx.stmt (.expr e) (.ofEnvironment (.ofConfig config)) = (.ok [.expr r], b) := by
    unfold stmt
    rw [Analysis.bind_of_ok h]
    rfl
  have all : ctx.stmts [.expr e] (.ofEnvironment (.ofConfig config)) = (.ok [.expr r], b) := by
    unfold stmts
    rw [Analysis.bind_of_ok one]
    unfold stmts
    rfl
  have run : ctx.analyze false [.expr e] (.ofConfig config)
      = ((ctx.program [.expr e] (.ofEnvironment (.ofConfig config))).1,
        (ctx.program [.expr e] (.ofEnvironment (.ofConfig config))).2.env) := rfl
  rw [run]
  unfold program
  rw [Analysis.bind_of_ok all]
  exact ⟨_, rfl⟩

/-- Where a setter for a target is analyzed, so is, in whatever text, the assignment of a name to the target, and the
environment that results is the same. -/
theorem analyze_assignment {p : String} (other : p ∉ target.names) (input : config.inputs.get? p = some .object)
    (h : ctx.analyze true [.expr target] (.ofConfig config) = (.ok program, env)) (source : List Char)
    (span at_ : Span) :
    ∃ t stored n, program = ⟨[.expr t], stored.getD .object, n⟩ ∧ t.Lacks p
      ∧ (∀ type, stored = some type → type.isDynamic = false)
      ∧ ∃ egress, (ctx.reading source).analyze false [.expr (.assign span target .plain (.ident at_ p))]
          (.ofConfig config)
        = (.ok ⟨[.expr (.assign ⟨stored.getD .object, span⟩ (t.shifted 1) .plain (.input ⟨.object, at_⟩ p 0) stored)],
            egress, n + 1⟩, env) := by
  obtain ⟨t, stored, b, made, rfl, rfl⟩ := of_analyze_setter h
  -- the name takes the first call site, and analysis gives the target the ones behind it
  have shifts : ShiftsTarget 1 p (ctx.assignedTarget target (ctx.expr target none) .object)
      ((ctx.reading source).assignedTarget target ((ctx.reading source).expr target none) .object) :=
    ctx.shifts_assignedTarget other (ctx.shifts_expr target other none) .object
  obtain ⟨⟨lacks, known⟩, made'⟩ := shifts _ b (t, stored) made
  have name : (ctx.reading source).expr (.ident at_ p) none (.ofEnvironment (.ofConfig config)) = _ :=
    ident_of_input input at_
  have whole : (ctx.reading source).expr (.assign span target .plain (.ident at_ p)) none
      (.ofEnvironment (.ofConfig config))
      = (.ok (.assign ⟨stored.getD .object, span⟩ (t.shifted 1) .plain (.input ⟨.object, at_⟩ p 0) stored),
        b.shifted 1) := by
    unfold expr
    rw [Analysis.bind_of_ok name]
    exact (Analysis.bind_of_ok made').trans (plainAssignment_object rfl _ _ _ _)
  exact ⟨t, stored, b.nextSite, rfl, lacks, known, analyze_expr whole⟩

end Context

/-! ## Call sites -/

/-- A call site is found under its shifted number. -/
theorem Typed.Expr.lookup_shiftedAccess (k site : Nat) (accesses : List (Nat × Member)) :
    (accesses.map (shiftedAccess k)).lookup (site + k) = accesses.lookup site := by
  induction accesses with
  | nil => rfl
  | cons access accesses ih =>
    obtain ⟨number, member⟩ := access
    have same : (site + k == number + k) = (site == number) := by
      rw [Bool.eq_iff_iff, beq_iff_eq, beq_iff_eq, Nat.add_right_cancel_iff]
    rw [List.map_cons, shiftedAccess, List.lookup_cons, List.lookup_cons, ih, same]

/-- The call sites of a target come behind that of the name that is assigned to it. -/
theorem Typed.Program.sites_assignment (t : Expr) (p : String) (i j : Info) (stored : Option Ty) (egress egress' : Ty)
    (n : Nat) (strategy : Option Strategy) (site : Nat) :
    ((⟨[.expr (.assign i (t.shifted 1) .plain (.input j p 0) stored)], egress, n + 1⟩ : Program).sites
        strategy)[site + 1]? = ((⟨[.expr t], egress', n⟩ : Program).sites strategy)[site]? := by
  have same : (⟨[.expr (.assign i (t.shifted 1) .plain (.input j p 0) stored)], egress, n + 1⟩ : Program).memberAt
      (site + 1) = (⟨[.expr t], egress', n⟩ : Program).memberAt site := by
    simp [memberAt, Stmt.accessesAll, Stmt.accesses, Expr.accesses, Expr.accesses_shifted, List.lookup_append,
      Expr.lookup_shiftedAccess, List.lookup_cons]
  unfold sites
  rw [List.getElem?_map, List.getElem?_map]
  by_cases within : site < n
  · rw [List.getElem?_range within, List.getElem?_range (Nat.succ_lt_succ within), Option.map_some, Option.map_some,
      same]
  · rw [List.getElem?_eq_none (by simpa using within), List.getElem?_eq_none (by simpa using within)]
    rfl

namespace Engine

variable {e : Engine} {source : String} {isSetter : Bool} {config : Config} {x : Expression}

/-- What is analyzed is made an expression, unless only verification is asked for. -/
theorem compile_eq {body : List Syntax.Stmt} {program : Program} {env : Environment}
    (parsed : Syntax.parse source = .ok body)
    (analyzed : (e.compiler source false isSetter).context.analyze isSetter body (.ofConfig config)
      = (.ok program, env)) :
    e.compile source isSetter config = if env.verifyOnly then .error (.misuse .verifyOnly)
      else .ok (.fresh program env isSetter e.limits) := by
  have whole : (e.compiler source false isSetter).analyze (.ofConfig config) = (.ok program, env) := by
    unfold Compiler.analyze
    rw [show (e.compiler source false isSetter).source = source from rfl, parsed]
    exact analyzed
  unfold compile Compiler.run
  rw [if_neg (fun h => h rfl), whole]
  dsimp only
  cases env.verifyOnly <;> rfl

/-- **A setter assigns.** Let a setter for a target be compiled, and let a name, which the target has not, be a declared
input of unknown type. Then the program that assigns the name to the target compiles too. Where the name is bound to a
value, the program, unless it is stopped for being too deep, has the effect of a setter that evaluates the target before
it makes the value fit: the same success or failure, bindings, frames and heap. So storing the value through the setter
has the effect of the program just if that order makes no difference; it makes none if the value is stored as it is, or
if the target is a name. -/
theorem setter_assigns_of_compile {assignment : String} {p : String} {target : Syntax.Expr} {span at_ : Span}
    (parsed : Syntax.parse source = .ok [.expr target])
    (parsed' : Syntax.parse assignment = .ok [.expr (.assign span target .plain (.ident at_ p))])
    (other : p ∉ target.names) (input : config.inputs.get? p = some .object)
    (h : e.compile source true config = .ok x) :
    ∃ y, e.compile assignment false config = .ok y
      ∧ ∀ (store : Store) (bindings : Table Value) (strategy : Strategy) (root v : Value), bindings.get? p = some v →
        let σ := Workspace.setting e.world strategy e.limits root
        let stored := σ.runSetter x.program v (.start store bindings x.sites)
        let storedLate := σ.storeLate x.program v (.start store bindings x.sites)
        let assigned := σ.runProgram y.program (.start store bindings y.sites)
        ¬ Exec.TooDeep assigned.1 →
          Exec.SameEffect storedLate assigned
          ∧ (Exec.SameEffect stored assigned ↔ Exec.SameEffect stored storedLate)
          ∧ (e.world.classes.keeps v x.program.egress
            ∨ (∃ t, x.program.body = [.expr t] ∧ t.named?.isSome) → Exec.SameEffect stored assigned) := by
  obtain ⟨body, program, env, parsed₀, analyzed, hx⟩ := compile_ok h
  obtain rfl : [.expr target] = body := Except.ok.inj (parsed.symm.trans parsed₀)
  obtain ⟨t, stored, n, rfl, lacks, known, egress, analyzed'⟩ :=
    Context.analyze_assignment other input analyzed assignment.toList span at_
  -- the setter was compiled, so that the environment, which both have, is not for verification only
  have produces : env.verifyOnly = false := by
    rw [compile_eq parsed analyzed] at h
    cases verify : env.verifyOnly with
    | false => rfl
    | true =>
      rw [verify] at h
      cases h
  have compiled : e.compile assignment false config = _ := compile_eq parsed' analyzed'
  rw [produces, if_neg Bool.false_ne_true] at compiled
  refine ⟨_, compiled, fun store bindings strategy root v bound => ?_⟩
  subst hx
  intro σ stored storedLate assigned within
  -- the program has the call sites of the setter, behind the one of the name
  have same : Exec.SameEffect storedLate assigned := by
    refine σ.sameEffect_assignment lacks known _ _ _ _ _ store bound (fun k => ?_) within
    exact List.getElem?_toArray.trans
      ((Program.sites_assignment t p _ _ _ _ _ n _ k).trans List.getElem?_toArray.symm)
  refine ⟨same, ⟨fun h => h.trans same.symm, fun h => h.trans same⟩, fun h => ?_⟩
  -- the setter makes the value fit first; that is as well done late if it does nothing, or if the target does nothing
  have late : stored = storedLate := by
    rcases h with keeps | ⟨t, body, named⟩
    · exact congrFun (σ.storeLate_eq_of_keeps rfl keeps).symm _
    · exact congrFun (σ.storeLate_eq_of_name body named v).symm _
  rw [late]
  exact same

end Engine

/-! ## An item of an array -/

/-- An array of numbers, a number and any value are supplied. -/
def itemConfig : Config :=
  { Config.default with inputs := [("xs", .mk (.builtin .array) [.raw (.builtin .integer)]),
      ("i", .raw (.builtin .integer)), ("v", .object)] }

/-- The item at `i` of `xs`, in the first five bytes of a text. -/
def item : Syntax.Expr := .index ⟨0, 5⟩ (.ident ⟨0, 2⟩ "xs") (.ident ⟨3, 4⟩ "i")

/-- Whether an expression is the item. -/
def isItem : Syntax.Expr → Bool
  | .index span (.ident span₁ name) (.ident span₂ position) =>
    span = ⟨0, 5⟩ && span₁ = ⟨0, 2⟩ && name = "xs" && span₂ = ⟨3, 4⟩ && position = "i"
  | _ => false

/-- Whether a program is the item and nothing else. -/
def isItemAlone : List Syntax.Stmt → Bool
  | [.expr e] => isItem e
  | _ => false

/-- Whether a program assigns `v` to the item. -/
def assignsItem : List Syntax.Stmt → Bool
  | [.expr (.assign _ e .plain (.ident _ name))] => isItem e && name = "v"
  | _ => false

theorem eq_of_isItem {e : Syntax.Expr} (h : isItem e) : e = item := by
  unfold isItem at h
  split at h
  · simp only [Bool.and_eq_true, decide_eq_true_eq] at h
    obtain ⟨⟨⟨⟨rfl, rfl⟩, rfl⟩, rfl⟩, rfl⟩ := h
    rfl
  · cases h

theorem eq_of_isItemAlone {body : List Syntax.Stmt} (h : isItemAlone body) : body = [.expr item] := by
  unfold isItemAlone at h
  split at h
  · rw [eq_of_isItem h]
  · cases h

theorem eq_of_assignsItem {body : List Syntax.Stmt} (h : assignsItem body) :
    ∃ span at_, body = [.expr (.assign span item .plain (.ident at_ "v"))] := by
  unfold assignsItem at h
  split at h
  · obtain ⟨target, name⟩ := Bool.and_eq_true_iff.1 h
    rw [eq_of_isItem target, of_decide_eq_true name]
    exact ⟨_, _, rfl⟩
  · cases h

/-- A number is stored at the index, or assigned to it. -/
theorem setter_assigns_of_compile_item :
    ∃ x y, pointEngine.compile "xs[i]" true itemConfig = .ok x
      ∧ pointEngine.compile "xs[i] = v" false itemConfig = .ok y
      ∧ let numbers : Value := .array 0 (.raw (.builtin .integer))
        let start (z : Expression) : Running := .start (.ofHeap ⟨#[.items [.int 1, .int 2]]⟩)
          [("xs", numbers), ("i", .int 1), ("v", .int 7)] z.sites
        let σ := Workspace.setting pointHost .specialized pointEngine.limits .null
        let assigned := σ.runProgram y.program (start y)
        assigned.2.store.heap.items 0 = [.int 1, .int 7]
          ∧ Exec.SameEffect (σ.runSetter x.program (.int 7) (start x)) assigned := by
  let numbers : Value := .array 0 (.raw (.builtin .integer))
  let store : Store := .ofHeap ⟨#[.items [.int 1, .int 2]]⟩
  let bindings : Table Value := [("xs", numbers), ("i", .int 1), ("v", .int 7)]
  let σ := Workspace.setting pointHost .specialized pointEngine.limits .null
  let run (y : Expression) := σ.runProgram y.program (.start store bindings y.sites)
  have target : (Syntax.parse "xs[i]").toOption.any isItemAlone := by decide +kernel
  have assignment : (Syntax.parse "xs[i] = v").toOption.any assignsItem := by decide +kernel
  have setter : (pointEngine.compile "xs[i]" true itemConfig).toOption.any fun x =>
      pointHost.classes.keeps (.int 7) x.program.egress := by
    decide +kernel
  have program : (pointEngine.compile "xs[i] = v" false itemConfig).toOption.any fun y =>
      (run y).1.toOption.isSome && (run y).2.store.heap.items 0 = [.int 1, .int 7] := by
    decide +kernel
  obtain ⟨x, hx, keeps⟩ := exists_ok_of_any setter
  obtain ⟨y, hy, ran⟩ := exists_ok_of_any program
  obtain ⟨body, parsed, alone⟩ := exists_ok_of_any target
  obtain ⟨body', parsed', assigns⟩ := exists_ok_of_any assignment
  obtain rfl := eq_of_isItemAlone alone
  obtain ⟨span, at_, rfl⟩ := eq_of_assignsItem assigns
  obtain ⟨y', hy', same⟩ := Engine.setter_assigns_of_compile parsed parsed' (by decide +kernel) (by rfl) hx
  obtain rfl : y = y' := Except.ok.inj (hy.symm.trans hy')
  obtain ⟨finished, items⟩ := Bool.and_eq_true_iff.1 ran
  have within : ¬ Exec.TooDeep (run y).1 := by
    rintro ⟨depth, limit, stopped⟩
    rw [stopped] at finished
    cases finished
  exact ⟨x, y, hx, hy, of_decide_eq_true items, (same store bindings .specialized .null _ rfl within).2.2 (.inl keeps)⟩

/-- A text is no number: the setter finds out before the index is counted up, the assignment behind it. And where
expressions may nest only one deep, an assignment cannot read the name that it assigns, while a setter is given its
value. -/
theorem setter_differs_of_order_and_depth :
    (∃ x y, pointEngine.compile "xs[i++]" true itemConfig = .ok x
      ∧ pointEngine.compile ("xs[i++]" ++ " = v") false itemConfig = .ok y
      ∧ let start (z : Expression) : Running := .start (.ofHeap ⟨#[.items [.int 1, .int 2]]⟩)
          [("xs", .array 0 (.raw (.builtin .integer))), ("i", .int 0), ("v", .str "abc")] z.sites
        let σ := Workspace.setting pointHost .specialized pointEngine.limits .null
        ¬ Exec.SameEffect (σ.runSetter x.program (.str "abc") (start x)) (σ.runProgram y.program (start y)))
      ∧ let shallow : Engine := { pointEngine with limits := ⟨1, none⟩ }
        ∃ x y, shallow.compile "i" true itemConfig = .ok x ∧ shallow.compile ("i" ++ " = v") false itemConfig = .ok y
        ∧ let start (z : Expression) : Running := .start (.ofHeap .empty) [("v", .int 7)] z.sites
          let σ := Workspace.setting pointHost .specialized shallow.limits .null
          ¬ Exec.SameEffect (σ.runSetter x.program (.int 7) (start x)) (σ.runProgram y.program (start y)) := by
  constructor
  · let start (z : Expression) : Running := .start (.ofHeap ⟨#[.items [.int 1, .int 2]]⟩)
      [("xs", .array 0 (.raw (.builtin .integer))), ("i", .int 0), ("v", .str "abc")] z.sites
    let σ := Workspace.setting pointHost .specialized pointEngine.limits .null
    have setter : (pointEngine.compile "xs[i++]" true itemConfig).toOption.any fun x =>
        (σ.runSetter x.program (.str "abc") (start x)).2.bindings.get? "i" = some (.int 0) := by
      decide +kernel
    have program : (pointEngine.compile ("xs[i++]" ++ " = v") false itemConfig).toOption.any fun y =>
        (σ.runProgram y.program (start y)).2.bindings.get? "i" = some (.int 1) := by
      decide +kernel
    obtain ⟨x, hx, before⟩ := exists_ok_of_any setter
    obtain ⟨y, hy, counted⟩ := exists_ok_of_any program
    refine ⟨x, y, hx, hy, fun same => ?_⟩
    have left := of_decide_eq_true before
    rw [same.2.bindings, of_decide_eq_true counted] at left
    cases left
  · intro shallow
    let start (z : Expression) : Running := .start (.ofHeap .empty) [("v", .int 7)] z.sites
    let σ := Workspace.setting pointHost .specialized shallow.limits .null
    have setter : (shallow.compile "i" true itemConfig).toOption.any fun x =>
        (σ.runSetter x.program (.int 7) (start x)).2.bindings.has "i" := by
      decide +kernel
    have program : (shallow.compile ("i" ++ " = v") false itemConfig).toOption.any fun y =>
        !(σ.runProgram y.program (start y)).2.bindings.has "i" := by
      decide +kernel
    obtain ⟨x, hx, bound⟩ := exists_ok_of_any setter
    obtain ⟨y, hy, unbound⟩ := exists_ok_of_any program
    refine ⟨x, y, hx, hy, fun same => ?_⟩
    rw [← same.2.bindings, bound] at unbound
    cases unbound

end HostExpr
