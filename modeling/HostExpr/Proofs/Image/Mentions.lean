import HostExpr.Typing.Link

/-!
# What a typed program mentions

The classes and functions that a typed program or an environment mentions, each at every place where it does. They
are all that linking depends on: it leaves a program as it is exactly if it leaves them as they are.
-/

namespace HostExpr

/-! ## Mentioned classes and functions -/

mutual

/-- The classes in a type. -/
def Ty.mentions : Ty → List Import
  | .mk c args => .cls c :: Ty.mentionsAll args

/-- The classes in types in a row. -/
def Ty.mentionsAll : List Ty → List Import
  | [] => []
  | t :: ts => t.mentions ++ Ty.mentionsAll ts

end

/-- The classes and functions of an environment. -/
def Environment.mentions (env : Environment) : List Import :=
  env.vars.flatMap (·.2.mentions) ++ env.inputs.flatMap (·.2.mentions) ++ env.imports.map (·.2)
    ++ (env.context?.map Ty.mentions).getD [] ++ Ty.mentionsAll env.lastTypeParams

namespace Typed

/-- The classes in the type of a node. -/
def Info.mentions (i : Info) : List Import := i.type.mentions

mutual

/-- The classes and functions in an expression. -/
def Expr.mentions : Expr → List Import
  | .constant i _ | .declared i _ | .input i _ _ | .this i => i.mentions
  | .classRef i c | .staticField i c _ => i.mentions ++ [.cls c]
  | .property i e _ _ | .unary i _ e | .step i _ e => i.mentions ++ e.mentions
  | .methodCall i receiver _ args _ => i.mentions ++ receiver.mentions ++ Expr.mentionsAll args
  | .functionCall i f args => i.mentions ++ .function f :: Expr.mentionsAll args
  | .convert i a b | .index i a b _ | .arith i _ a b | .logic i _ a b | .compare i _ a b =>
    i.mentions ++ a.mentions ++ b.mentions
  | .assign i target _ v stored =>
    i.mentions ++ target.mentions ++ v.mentions ++ (stored.map Ty.mentions).getD []
  | .cast i t e | .newSized i t e => i.mentions ++ t.mentions ++ e.mentions
  | .conditional i c a b => i.mentions ++ c.mentions ++ a.mentions ++ b.mentions
  | .construct i c args _ => i.mentions ++ .cls c :: Expr.mentionsAll args
  | .newArray i t items => i.mentions ++ t.mentions ++ Expr.mentionsAll items
  | .inlineList i items => i.mentions ++ Expr.mentionsAll items
  | .inlineMap i entries => i.mentions ++ Expr.mentionsEntries entries

/-- The classes and functions in expressions in a row. -/
def Expr.mentionsAll : List Expr → List Import
  | [] => []
  | e :: es => e.mentions ++ Expr.mentionsAll es

/-- The classes and functions in the entries of a map. -/
def Expr.mentionsEntries : List (Expr × Expr) → List Import
  | [] => []
  | (k, v) :: es => k.mentions ++ v.mentions ++ Expr.mentionsEntries es

end

/-- The classes and functions in an expression that may be missing. -/
def Expr.mentions? (e : Option Expr) : List Import := (e.map Expr.mentions).getD []

mutual

/-- The classes and functions in a statement. -/
def Stmt.mentions : Stmt → List Import
  | .expr e => e.mentions
  | .declare i _ declared init _ => i.mentions ++ (declared.map Ty.mentions).getD [] ++ Expr.mentions? init
  | .block i body => i.mentions ++ Stmt.mentionsAll body
  | .branch i cond thenBody elseBody =>
    i.mentions ++ cond.mentions ++ Stmt.mentionsAll thenBody ++
      match elseBody with
      | some body => Stmt.mentionsAll body
      | none => []
  | .whileLoop i cond body => i.mentions ++ cond.mentions ++ Stmt.mentionsAll body
  | .forLoop i init cond update body =>
    let first :=
      match init with
      | some s => s.mentions
      | none => []
    i.mentions ++ first ++ Expr.mentions? cond ++ Expr.mentionsAll update ++ Stmt.mentionsAll body
  | .forEach i _ declared items body =>
    i.mentions ++ (declared.map Ty.mentions).getD [] ++ items.mentions ++ Stmt.mentionsAll body
  | .returns i e => i.mentions ++ Expr.mentions? e
  | .nop i => i.mentions

/-- The classes and functions in statements in a row. -/
def Stmt.mentionsAll : List Stmt → List Import
  | [] => []
  | s :: ss => s.mentions ++ Stmt.mentionsAll ss

end

/-- The classes and functions in a program. -/
def Program.mentions (p : Program) : List Import := Stmt.mentionsAll p.body ++ p.egress.mentions

end Typed

/-! ## Linking that changes nothing -/

namespace Linker

variable (l : Linker)

/-- Linking leaves classes and functions as they are. -/
def Keeps (ms : List Import) : Prop := ∀ m ∈ ms, l.imported m = some m

@[simp]
theorem keeps_nil : l.Keeps [] := by
  intro m hm
  cases hm

@[simp]
theorem keeps_cons (m : Import) (ms : List Import) : l.Keeps (m :: ms) ↔ l.imported m = some m ∧ l.Keeps ms := by
  simp [Keeps]

@[simp]
theorem keeps_append (ms ms' : List Import) : l.Keeps (ms ++ ms') ↔ l.Keeps ms ∧ l.Keeps ms' := by
  simp only [Keeps, List.mem_append]
  constructor
  · intro h
    exact ⟨fun m hm => h m (Or.inl hm), fun m hm => h m (Or.inr hm)⟩
  · rintro ⟨h, h'⟩ m (hm | hm)
    · exact h m hm
    · exact h' m hm

@[simp]
theorem imported_cls (c : ClassRef) : l.imported (.cls c) = some (.cls c) ↔ l.cls c = some c := by
  simp [imported]

@[simp]
theorem imported_function (f : Nat) :
    l.imported (.function f) = some (.function f) ↔ l.function f = some f := by
  simp [imported]

mutual

/-- A type stays as it is if its classes do. -/
@[simp]
theorem type_eq_self_iff (t : Ty) : l.type t = some t ↔ l.Keeps t.mentions := by
  obtain ⟨c, args⟩ := t
  have args_iff := types_eq_self_iff args
  simp [type, Ty.mentions, Option.bind_eq_some_iff, args_iff]

@[simp]
theorem types_eq_self_iff (ts : List Ty) : l.types ts = some ts ↔ l.Keeps (Ty.mentionsAll ts) := by
  cases ts with
  | nil => simp [types, Ty.mentionsAll]
  | cons t ts =>
    have first_iff := type_eq_self_iff t
    have rest_iff := types_eq_self_iff ts
    simp [types, Ty.mentionsAll, Option.bind_eq_some_iff, first_iff, rest_iff]

end

@[simp]
theorem type?_eq_self_iff (t : Option Ty) : l.type? t = some t ↔ l.Keeps ((t.map Ty.mentions).getD []) := by
  cases t with
  | none => simp [type?]
  | some t => simp [type?]

/-- Parts under names stay as they are if each part does. -/
theorem mapM_eq_self_iff {α : Type} (link : α → Option α) (t : Table α) :
    (t.mapM fun (name, a) => do return (name, ← link a)) = some t ↔ ∀ name a, (name, a) ∈ t → link a = some a := by
  induction t with
  | nil => simp
  | cons entry t ih =>
    obtain ⟨name, a⟩ := entry
    have cons_iff : (((name, a) :: t).mapM fun (name, a) => do return (name, ← link a)) = some ((name, a) :: t)
        ↔ link a = some a ∧ (t.mapM fun (name, a) => do return (name, ← link a)) = some t := by
      simp [Option.bind_eq_some_iff, ← and_assoc]
    rw [cons_iff, ih]
    simp only [List.mem_cons, Prod.mk.injEq]
    constructor
    · rintro ⟨first, rest⟩ n b (⟨rfl, rfl⟩ | hb)
      · exact first
      · exact rest n b hb
    · intro h
      exact ⟨h name a (Or.inl ⟨rfl, rfl⟩), fun n b hb => h n b (Or.inr hb)⟩

@[simp]
theorem typeTable_eq_self_iff (t : Table Ty) : l.typeTable t = some t ↔ l.Keeps (t.flatMap (·.2.mentions)) := by
  unfold typeTable
  rw [mapM_eq_self_iff]
  simp only [type_eq_self_iff, Keeps, List.mem_flatMap]
  constructor
  · rintro h m ⟨⟨name, type⟩, hn, hm⟩
    exact h name type hn m hm
  · intro h name type hn m hm
    exact h m ⟨(name, type), hn, hm⟩

@[simp]
theorem importTable_eq_self_iff (t : Table Import) : l.importTable t = some t ↔ l.Keeps (t.map (·.2)) := by
  unfold importTable
  rw [mapM_eq_self_iff]
  simp only [Keeps, List.mem_map]
  constructor
  · rintro h _ ⟨⟨name, m⟩, hn, rfl⟩
    exact h name m hn
  · intro h name m hn
    exact h m ⟨(name, m), hn, rfl⟩

/-- An environment stays as it is if all it mentions does. -/
theorem environment_eq_self_iff (env : Environment) : l.environment env = some env ↔ l.Keeps env.mentions := by
  obtain ⟨⟨strong, strict, verifyOnly, imports, inputs, context?, strategy?⟩, vars, params, names⟩ := env
  simp [environment, Environment.mentions, Option.bind_eq_some_iff, ← and_assoc]

open Typed

@[simp]
theorem info_eq_self_iff (i : Info) : l.info i = some i ↔ l.Keeps i.mentions := by
  obtain ⟨type, span⟩ := i
  simp [info, Info.mentions, Option.bind_eq_some_iff]

mutual

/-- An expression stays as it is if all it mentions does. -/
@[simp]
theorem expr_eq_self_iff (e : Expr) : l.expr e = some e ↔ l.Keeps e.mentions := by
  -- linking is a chain of partial steps, one for each part; it gives the expression back just if each step does
  cases e with
  | constant | declared | input | this | classRef | staticField =>
    simp [expr, Expr.mentions, Option.bind_eq_some_iff]
  | property _ e | unary _ _ e | step _ _ e | cast _ _ e | newSized _ _ e =>
    have part := expr_eq_self_iff e
    simp [expr, Expr.mentions, Option.bind_eq_some_iff, part, ← and_assoc]
  | convert _ a b | index _ a b | arith _ _ a b | logic _ _ a b | compare _ _ a b | assign _ a _ b =>
    have left := expr_eq_self_iff a
    have right := expr_eq_self_iff b
    simp [expr, Expr.mentions, Option.bind_eq_some_iff, left, right, ← and_assoc]
  | conditional _ a b c =>
    have cond := expr_eq_self_iff a
    have yes := expr_eq_self_iff b
    have no := expr_eq_self_iff c
    simp [expr, Expr.mentions, Option.bind_eq_some_iff, cond, yes, no, ← and_assoc]
  | methodCall _ e _ args =>
    have receiver := expr_eq_self_iff e
    have rest := exprs_eq_self_iff args
    simp [expr, Expr.mentions, Option.bind_eq_some_iff, receiver, rest, ← and_assoc]
  | functionCall _ _ es | construct _ _ es | newArray _ _ es | inlineList _ es =>
    have parts := exprs_eq_self_iff es
    simp [expr, Expr.mentions, Option.bind_eq_some_iff, parts, ← and_assoc]
  | inlineMap _ entries =>
    have parts := exprEntries_eq_self_iff entries
    simp [expr, Expr.mentions, Option.bind_eq_some_iff, parts]

@[simp]
theorem exprs_eq_self_iff (es : List Expr) : l.exprs es = some es ↔ l.Keeps (Expr.mentionsAll es) := by
  cases es with
  | nil => simp [exprs, Expr.mentionsAll]
  | cons e es =>
    have first := expr_eq_self_iff e
    have rest := exprs_eq_self_iff es
    simp [exprs, Expr.mentionsAll, Option.bind_eq_some_iff, first, rest]

theorem exprEntries_eq_self_iff (es : List (Expr × Expr)) :
    l.exprEntries es = some es ↔ l.Keeps (Expr.mentionsEntries es) := by
  match es with
  | [] => simp [exprEntries, Expr.mentionsEntries]
  | (k, v) :: es =>
    have key := expr_eq_self_iff k
    have value := expr_eq_self_iff v
    have rest := exprEntries_eq_self_iff es
    simp [exprEntries, Expr.mentionsEntries, Option.bind_eq_some_iff, key, value, rest, ← and_assoc]

end

@[simp]
theorem expr?_eq_self_iff (e : Option Expr) : l.expr? e = some e ↔ l.Keeps (Expr.mentions? e) := by
  cases e with
  | none => simp [expr?, Expr.mentions?]
  | some e => simp [expr?, Expr.mentions?]

mutual

/-- A statement stays as it is if all it mentions does. -/
theorem stmt_eq_self_iff (s : Stmt) : l.stmt s = some s ↔ l.Keeps s.mentions := by
  cases s with
  | expr | declare | returns | nop => simp [stmt, Stmt.mentions, Option.bind_eq_some_iff, ← and_assoc]
  | block _ body | whileLoop _ _ body | forEach _ _ _ _ body =>
    have rest := stmts_eq_self_iff body
    simp [stmt, Stmt.mentions, Option.bind_eq_some_iff, rest, ← and_assoc]
  | branch _ _ thenBody elseBody =>
    have yes := stmts_eq_self_iff thenBody
    cases elseBody with
    | none => simp [stmt, Stmt.mentions, Option.bind_eq_some_iff, yes, ← and_assoc]
    | some body =>
      have no := stmts_eq_self_iff body
      simp only [stmt, Stmt.mentions, keeps_append, ← yes, ← no, ← info_eq_self_iff, ← expr_eq_self_iff]
      simp only [Option.bind_eq_bind, Option.bind_eq_some_iff, Option.map_eq_map, Option.map_eq_some_iff]
      constructor
      · rintro ⟨_, ⟨body', hb, rfl⟩, i', hi, cond', hc, then', ht, same⟩
        cases same
        exact ⟨⟨⟨hi, hc⟩, ht⟩, hb⟩
      · rintro ⟨⟨⟨hi, hc⟩, ht⟩, hb⟩
        exact ⟨_, ⟨_, hb, rfl⟩, _, hi, _, hc, _, ht, rfl⟩
  | forLoop _ init _ _ body =>
    have rest := stmts_eq_self_iff body
    cases init with
    | none => simp [stmt, Stmt.mentions, Option.bind_eq_some_iff, rest, ← and_assoc]
    | some s =>
      have first := stmt_eq_self_iff s
      simp only [stmt, Stmt.mentions, keeps_append, ← first, ← rest, ← info_eq_self_iff, ← expr?_eq_self_iff,
        ← exprs_eq_self_iff]
      simp only [Option.bind_eq_bind, Option.bind_eq_some_iff, Option.map_eq_map, Option.map_eq_some_iff]
      constructor
      · rintro ⟨_, ⟨s', hs, rfl⟩, i', hi, cond', hc, update', hu, body', hb, same⟩
        cases same
        exact ⟨⟨⟨⟨hi, hs⟩, hc⟩, hu⟩, hb⟩
      · rintro ⟨⟨⟨⟨hi, hs⟩, hc⟩, hu⟩, hb⟩
        exact ⟨_, ⟨_, hs, rfl⟩, _, hi, _, hc, _, hu, _, hb, rfl⟩

theorem stmts_eq_self_iff (ss : List Stmt) : l.stmts ss = some ss ↔ l.Keeps (Stmt.mentionsAll ss) := by
  cases ss with
  | nil => simp [stmts, Stmt.mentionsAll]
  | cons s ss =>
    have first := stmt_eq_self_iff s
    have rest := stmts_eq_self_iff ss
    simp [stmts, Stmt.mentionsAll, Option.bind_eq_some_iff, first, rest]

end

/-- A program stays as it is if all it mentions does. -/
theorem program_eq_self_iff (p : Program) : l.program p = some p ↔ l.Keeps p.mentions := by
  obtain ⟨body, egress, siteCount⟩ := p
  simp [program, Program.mentions, Option.bind_eq_some_iff, stmts_eq_self_iff]

end Linker

end HostExpr
