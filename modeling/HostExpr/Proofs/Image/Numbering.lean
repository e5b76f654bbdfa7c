import HostExpr.Engine.Image
import HostExpr.Proofs.Scope.Agreement
import HostExpr.Proofs.Typing.Program

/-!
# Call sites are numbered faithfully

Analysis numbers the call sites of a program from nothing on, each access with a number of its own. So the table of
sites has at the number of a node the member that the node accesses. Linking replaces classes and functions only: it
leaves the accesses of a tree as they are, so that a program that was written and read again is numbered as it was.
-/

namespace HostExpr

open Typed

/-! ## Numbers and tables -/

/-- The nodes that access members do so through sites of their own, whose numbers are below the count. -/
structure Typed.Program.Numbered (p : Program) : Prop where
  below : ∀ e ∈ Stmt.partsAll p.body, ∀ x ∈ e.access?, x.1 < p.siteCount
  distinct : (Stmt.partsAll p.body).Pairwise Expr.SitesDiffer

/-- The expression has one call site for each number, and at the number of a node the site of its member. -/
structure Expression.Tabled (x : Expression) : Prop where
  size : x.sites.size = x.program.siteCount
  member : ∀ e ∈ Stmt.partsAll x.program.body, ∀ a ∈ e.access?, (x.sites[a.1]?).map Site.member = some a.2

namespace Typed.Program

/-- Only the accesses of a program count. -/
theorem numbered_iff (p : Program) :
    p.Numbered ↔ (∀ x ∈ Stmt.accessesAll p.body, x.1 < p.siteCount)
      ∧ (Stmt.accessesAll p.body).Pairwise fun x y => x.1 ≠ y.1 := by
  rw [Stmt.accessesAll_eq, List.pairwise_filterMap]
  constructor
  · intro h
    refine ⟨fun x hx => ?_, h.distinct⟩
    obtain ⟨e, he, ha⟩ := List.mem_filterMap.1 hx
    exact h.below e he x ha
  · rintro ⟨below, distinct⟩
    exact ⟨fun e he x hx => below x (List.mem_filterMap.2 ⟨e, he, hx⟩), distinct⟩

/-- The table of sites has an entry for each number. -/
theorem length_sites (p : Program) (strategy : Option Strategy) : (p.sites strategy).length = p.siteCount := by
  rw [sites, List.length_map, List.length_range]

/-- The entry at a number is a fresh site of the member that the number stands for. -/
theorem getElem?_sites {p : Program} {site : Nat} (below : site < p.siteCount) (strategy : Option Strategy) :
    (p.sites strategy)[site]? = some (.fresh (p.memberAt site) strategy) := by
  rw [sites, List.getElem?_map, List.getElem?_range below]
  rfl

/-- An expression with fresh call sites has the members of its nodes in them, if they are numbered faithfully. -/
theorem Numbered.tabled {p : Program} (h : p.Numbered) (env : Environment) (isSetter : Bool) (limits : Limits) :
    (Expression.fresh p env isSetter limits).Tabled where
  size := p.length_sites env.strategy?
  member e he a ha := by
    show ((p.sites env.strategy?).toArray[a.1]?).map Site.member = some a.2
    rw [List.getElem?_toArray, p.getElem?_sites (h.below e he a ha),
      Program.memberAt_eq (Expr.single_of_distinct h.distinct) he ha]
    rfl

end Typed.Program

/-! ## Linking leaves accesses as they are -/

namespace Linker

variable {l : Linker}

theorem length_exprs {es es' : List Expr} (h : l.exprs es = some es') : es'.length = es.length := by
  induction es generalizing es' with
  | nil =>
    cases h
    rfl
  | cons e es ih =>
    obtain ⟨e', -, h⟩ := Option.bind_eq_some_iff.1 h
    obtain ⟨rest, linked, h⟩ := Option.bind_eq_some_iff.1 h
    cases h
    rw [List.length_cons, List.length_cons, ih linked]

mutual

theorem accesses_expr (e : Expr) {e' : Expr} (h : l.expr e = some e') : e'.accesses = e.accesses := by
  cases e <;> simp only [expr, Option.bind_eq_bind, Option.bind_eq_some_iff, Option.pure_def, Option.some.injEq] at h
  case constant | declared | input | this =>
    obtain ⟨_, -, rfl⟩ := h
    simp only [Expr.accesses]
  case classRef | staticField =>
    obtain ⟨_, -, _, -, rfl⟩ := h
    simp only [Expr.accesses]
  case property _ e _ _ | unary _ _ e | step _ _ e =>
    obtain ⟨_, -, _, part, rfl⟩ := h
    simp only [Expr.accesses, accesses_expr e part]
  case cast _ _ e | newSized _ _ e =>
    obtain ⟨_, -, _, -, _, part, rfl⟩ := h
    simp only [Expr.accesses, accesses_expr e part]
  case convert _ a b | index _ a b _ | arith _ _ a b | logic _ _ a b | compare _ _ a b =>
    obtain ⟨_, -, _, left, _, right, rfl⟩ := h
    simp only [Expr.accesses, accesses_expr a left, accesses_expr b right]
  case assign _ a _ b _ =>
    obtain ⟨_, -, _, left, _, right, _, -, rfl⟩ := h
    simp only [Expr.accesses, accesses_expr a left, accesses_expr b right]
  case conditional _ a b c =>
    obtain ⟨_, -, _, cond, _, yes, _, no, rfl⟩ := h
    simp only [Expr.accesses, accesses_expr a cond, accesses_expr b yes, accesses_expr c no]
  case methodCall _ e _ args _ =>
    obtain ⟨_, -, _, receiver, _, rest, rfl⟩ := h
    simp only [Expr.accesses, accesses_expr e receiver, accesses_exprs args rest, length_exprs rest]
  case functionCall _ _ es | construct _ _ es _ | newArray _ _ es =>
    obtain ⟨_, -, _, -, _, parts, rfl⟩ := h
    simp only [Expr.accesses, accesses_exprs es parts]
  case inlineList _ es =>
    obtain ⟨_, -, _, parts, rfl⟩ := h
    simp only [Expr.accesses, accesses_exprs es parts]
  case inlineMap _ entries =>
    obtain ⟨_, -, _, parts, rfl⟩ := h
    simp only [Expr.accesses, accesses_exprEntries entries parts]

theorem accesses_exprs (es : List Expr) {es' : List Expr} (h : l.exprs es = some es') :
    Expr.accessesAll es' = Expr.accessesAll es := by
  cases es <;> simp only [exprs, Option.bind_eq_bind, Option.bind_eq_some_iff, Option.pure_def, Option.some.injEq] at h
  case nil => rw [← h]
  case cons e es =>
    obtain ⟨_, first, _, rest, rfl⟩ := h
    simp only [Expr.accessesAll, accesses_expr e first, accesses_exprs es rest]

theorem accesses_exprEntries (entries : List (Expr × Expr)) {entries' : List (Expr × Expr)}
    (h : l.exprEntries entries = some entries') : Expr.accessesEntries entries' = Expr.accessesEntries entries := by
  match entries with
  | [] =>
    cases h
    rfl
  | (k, v) :: es =>
    simp only [exprEntries, Option.bind_eq_bind, Option.bind_eq_some_iff, Option.pure_def, Option.some.injEq] at h
    obtain ⟨_, key, _, value, _, rest, rfl⟩ := h
    simp only [Expr.accessesEntries, accesses_expr k key, accesses_expr v value, accesses_exprEntries es rest]

end

theorem accesses_expr? (e : Option Expr) {e' : Option Expr} (h : l.expr? e = some e') :
    (e'.map Expr.accesses).getD [] = (e.map Expr.accesses).getD [] := by
  cases e with
  | none =>
    cases h
    rfl
  | some e =>
    obtain ⟨e', linked, rfl⟩ := Option.map_eq_some_iff.1 h
    exact accesses_expr e linked

mutual

theorem accesses_stmt (s : Stmt) {s' : Stmt} (h : l.stmt s = some s') : s'.accesses = s.accesses := by
  cases s
  case branch _ cond thenBody elseBody =>
    cases elseBody <;> simp only [stmt, Option.bind_eq_bind, Option.bind_eq_some_iff, Option.pure_def,
      Option.map_eq_map, Option.map_eq_some_iff, Option.some.injEq] at h
    case none =>
      obtain ⟨_, rfl, _, -, _, head, _, yes, rfl⟩ := h
      simp only [Stmt.accesses, accesses_expr cond head, accesses_stmts thenBody yes]
    case some body =>
      obtain ⟨_, ⟨_, no, rfl⟩, _, -, _, head, _, yes, rfl⟩ := h
      simp only [Stmt.accesses, accesses_expr cond head, accesses_stmts thenBody yes, accesses_stmts body no]
  case forLoop _ init cond update body =>
    cases init <;> simp only [stmt, Option.bind_eq_bind, Option.bind_eq_some_iff, Option.pure_def,
      Option.map_eq_map, Option.map_eq_some_iff, Option.some.injEq] at h
    case none =>
      obtain ⟨_, rfl, _, -, _, head, _, last, _, rest, rfl⟩ := h
      simp only [Stmt.accesses, accesses_expr? cond head, accesses_exprs update last, accesses_stmts body rest]
    case some s =>
      obtain ⟨_, ⟨_, first, rfl⟩, _, -, _, head, _, last, _, rest, rfl⟩ := h
      simp only [Stmt.accesses, accesses_stmt s first, accesses_expr? cond head, accesses_exprs update last,
        accesses_stmts body rest]
  all_goals
    simp only [stmt, Option.bind_eq_bind, Option.bind_eq_some_iff, Option.pure_def, Option.some.injEq] at h
  case expr e =>
    obtain ⟨_, part, rfl⟩ := h
    exact accesses_expr e part
  case declare _ _ _ init _ =>
    obtain ⟨_, -, _, -, _, part, rfl⟩ := h
    exact accesses_expr? init part
  case returns _ value =>
    obtain ⟨_, -, _, part, rfl⟩ := h
    exact accesses_expr? value part
  case block _ body =>
    obtain ⟨_, -, _, rest, rfl⟩ := h
    exact accesses_stmts body rest
  case whileLoop _ cond body =>
    obtain ⟨_, -, _, head, _, rest, rfl⟩ := h
    simp only [Stmt.accesses, accesses_expr cond head, accesses_stmts body rest]
  case forEach _ _ _ items body =>
    obtain ⟨_, -, _, -, _, head, _, rest, rfl⟩ := h
    simp only [Stmt.accesses, accesses_expr items head, accesses_stmts body rest]
  case nop =>
    obtain ⟨_, -, rfl⟩ := h
    rfl

theorem accesses_stmts (ss : List Stmt) {ss' : List Stmt} (h : l.stmts ss = some ss') :
    Stmt.accessesAll ss' = Stmt.accessesAll ss := by
  cases ss <;> simp only [stmts, Option.bind_eq_bind, Option.bind_eq_some_iff, Option.pure_def, Option.some.injEq] at h
  case nil => rw [← h]
  case cons s ss =>
    obtain ⟨_, first, _, rest, rfl⟩ := h
    simp only [Stmt.accessesAll, accesses_stmt s first, accesses_stmts ss rest]

end

/-- A linked program is numbered as it was. -/
theorem numbered_program {p p' : Program} (h : l.program p = some p') (numbered : p.Numbered) : p'.Numbered := by
  obtain ⟨body, linked, h⟩ := Option.bind_eq_some_iff.1 h
  obtain ⟨egress, -, h⟩ := Option.bind_eq_some_iff.1 h
  cases h
  rw [Program.numbered_iff] at numbered ⊢
  rw [accesses_stmts p.body linked]
  exact numbered

end Linker

/-! ## Images -/

/-- What is read from an image is linked from the document in it, with fresh call sites. -/
theorem Engine.load_ok {e : Engine} {image : Image} {y : Expression} (h : e.load image = .ok y) :
    ∃ d program env, image.body = some d ∧ (e.linker d).program d.program = some program
      ∧ y = .fresh program env d.isSetter e.limits := by
  unfold load at h
  -- loading has four ways to fail, in this order: the header, the body, missing bytes, links
  cases header : image.checkHeader with
  | error failure =>
    rw [header] at h
    cases h
  | ok _ =>
    rw [header] at h
    cases body : image.body with
    | none =>
      rw [body] at h
      cases h
    | some d =>
      rw [body] at h
      change (if image.missing = 0 then _ else _) = _ at h
      by_cases whole : image.missing = 0
      · cases linked : e.link d with
        | none =>
          rw [if_pos whole, linked] at h
          cases h
        | some x =>
          rw [if_pos whole, linked] at h
          obtain rfl : x = y := Except.ok.inj h
          obtain ⟨program, hp, linked⟩ := Option.bind_eq_some_iff.1 linked
          obtain ⟨env, -, linked⟩ := Option.bind_eq_some_iff.1 linked
          cases linked
          exact ⟨d, program, env, rfl, hp, rfl⟩
      · rw [if_neg whole] at h
        cases h

/-- What is read from the written form of a numbered expression is numbered, and its sites are those of its nodes. -/
theorem Engine.numbered_of_load {e : Engine} {w : World} {x y : Expression} (numbered : x.program.Numbered)
    (h : e.load (x.toImage w) = .ok y) : y.program.Numbered ∧ y.Tabled := by
  obtain ⟨d, program, env, written, linked, rfl⟩ := load_ok h
  cases written
  have kept := Linker.numbered_program linked numbered
  exact ⟨kept, kept.tabled env _ e.limits⟩

/-! ## Analyzed programs -/

namespace Context

open Analysis

variable {ctx : Context}

/-- A program counts the sites that its analysis has numbered. -/
theorem siteCount_program (body : List Syntax.Stmt) (a : AnalysisState) :
    Yields (ctx.program body) a fun p b => p.siteCount = b.nextSite := by
  unfold program
  exact .bind fun ss b _ => .get (.pure rfl)

theorem siteCount_setter (body : List Syntax.Stmt) (a : AnalysisState) :
    Yields (ctx.setter body) a fun p b => p.siteCount = b.nextSite := by
  unfold setter
  split
  · exact .bind fun assigned b _ => .get (.pure rfl)
  · exact .fail _ _

/-- An analysis numbers the sites of what it makes. -/
theorem Made.numbered {p : Program} {a b : AnalysisState} (h : ctx.Made a (Stmt.partsAll p.body) b)
    (count : p.siteCount = b.nextSite) : p.Numbered where
  below e he x hx := by
    rw [count]
    exact (h.within e he x hx).2
  distinct := h.distinct

theorem numbered_of_accepted {isSetter : Bool} {body : List Syntax.Stmt} {a b : AnalysisState} {p : Program}
    (h : (if isSetter then ctx.setter body else ctx.program body) a = (.ok p, b)) : p.Numbered := by
  cases isSetter with
  | true => exact (made_setter body a h).numbered (siteCount_setter body a h)
  | false => exact (made_program body a h).numbered (siteCount_program body a h)

/-- **Call sites are numbered faithfully.** In each program or setter that an analysis accepts, from whatever
environment, the numbers of call sites are below their count and no two nodes have the same. The table of sites has
just as many entries, and at the number of a node the site of its member. The same holds of the expressions that any
engine reads from the written form of an expression for the program, whatever its sites have found. -/
theorem numbered_of_analyze {isSetter : Bool} {body : List Syntax.Stmt} {env env' : Environment} {p : Program}
    (h : ctx.analyze isSetter body env = (.ok p, env')) :
    p.Numbered ∧ (∀ limits, (Expression.fresh p env' isSetter limits).Tabled)
      ∧ ∀ (x : Expression) (w : World) (e : Engine) (y : Expression), x.program = p →
        e.load (x.toImage w) = .ok y → y.program.Numbered ∧ y.Tabled := by
  have numbered : p.Numbered := by
    unfold analyze at h
    obtain ⟨outcome, -⟩ := Prod.mk.inj h
    exact numbered_of_accepted (Prod.ext outcome rfl)
  refine ⟨numbered, fun limits => numbered.tabled env' isSetter limits, fun x w e y same loaded => ?_⟩
  exact Engine.numbered_of_load (same ▸ numbered) loaded

end Context

/-! ## Accesses of every kind -/

/-- A program that accesses members in each way, with one name read twice. -/
def accessesMembers : String := "o.a.f(o.b, m[0]) + m[1].size()"

theorem numbered_of_analyze_accessesMembers : ∃ x y,
    Engine.bare.compile accessesMembers false .default = .ok x ∧ x.program.Numbered ∧ x.Tabled
      ∧ Engine.bare.load (x.toImage .bare) = .ok y ∧ y.program.Numbered ∧ y.Tabled
      ∧ y.sites.toList.map Site.member = [.property "o", .property "a", .property "o", .property "b", .property "m",
        .index, .method "f" 2, .property "m", .index, .method "size" 0] := by
  have read : (Engine.bare.compile accessesMembers false .default).toOption.any fun x =>
      (Engine.bare.load (x.toImage .bare)).toOption.any fun y => decide (y.sites.toList.map Site.member
        = [.property "o", .property "a", .property "o", .property "b", .property "m", .index, .method "f" 2,
          .property "m", .index, .method "size" 0]) := by
    decide +kernel
  obtain ⟨x, hx, loaded⟩ := exists_ok_of_any read
  obtain ⟨y, hy, members⟩ := exists_ok_of_any loaded
  obtain ⟨body, program, env, -, analyzed, rfl⟩ := Engine.compile_ok hx
  obtain ⟨numbered, tabled, copies⟩ := Context.numbered_of_analyze analyzed
  obtain ⟨numbered', tabled'⟩ := copies _ .bare .bare y rfl hy
  exact ⟨_, y, hx, numbered, tabled _, hy, numbered', tabled', of_decide_eq_true members⟩

end HostExpr
