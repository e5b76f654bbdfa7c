import HostExpr.Proofs.Grammar.Loops
import HostExpr.Proofs.Scope.Resolution

/-!
# Analysis resolves names in the scopes of the text

What analysis makes of a statement is resolved, and behind the statement its scopes have the names that the text lets
expect. The induction is on the source; a block opens a scope, and closing it gives back the scopes before it.
-/

namespace HostExpr

namespace Context

open Typed Analysis

variable {ctx : Context} {Γ : Scopes Declared} {a b : AnalysisState}

/-! ## Expressions in statements -/

theorem resolves_expr {x : Syntax.Expr} {hint : Option Ty} {e : Expr} (hn : a.scopes.SameNames Γ)
    (h : ctx.expr x hint a = (.ok e, b)) : ctx.Resolves Γ e ∧ b.scopes = a.scopes :=
  ⟨⟨x, hint, a, b, h, hn⟩, (ctx.keepsScopes_expr x hint).scopes_eq h⟩

theorem resolves_expr? {x : Option Syntax.Expr} {hint : Option Ty} {e : Option Expr} (hn : a.scopes.SameNames Γ)
    (h : ctx.expr? x hint a = (.ok e, b)) : (∀ e' ∈ e, ctx.Resolves Γ e') ∧ b.scopes = a.scopes := by
  refine ⟨?_, (ctx.keepsScopes_expr? x hint).scopes_eq h⟩
  cases x with
  | none =>
    obtain ⟨rfl, -⟩ := pure_ok h
    intro e' he
    cases he
  | some x =>
    obtain ⟨e₀, hx, rfl⟩ := map_ok h
    intro e' he
    cases he
    exact (resolves_expr hn hx).1

theorem resolves_condition {x : Syntax.Expr} {e : Expr} (hn : a.scopes.SameNames Γ)
    (h : ctx.condition x a = (.ok e, b)) : ctx.Resolves Γ e ∧ b.scopes = a.scopes := by
  refine ⟨?_, (ctx.keepsScopes_condition x).scopes_eq h⟩
  obtain ⟨e₀, c, hx, h⟩ := bind_ok h
  obtain ⟨-, d, -, h⟩ := bind_ok h
  obtain ⟨rfl, -⟩ := pure_ok h
  exact (resolves_expr hn hx).1

theorem resolves_condition? {x : Option Syntax.Expr} {e : Option Expr} (hn : a.scopes.SameNames Γ)
    (h : ctx.condition? x a = (.ok e, b)) : (∀ e' ∈ e, ctx.Resolves Γ e') ∧ b.scopes = a.scopes := by
  refine ⟨?_, (ctx.keepsScopes_condition? x).scopes_eq h⟩
  cases x with
  | none =>
    obtain ⟨rfl, -⟩ := pure_ok h
    intro e' he
    cases he
  | some x =>
    obtain ⟨e₀, hx, rfl⟩ := map_ok h
    intro e' he
    cases he
    exact (resolves_condition hn hx).1

theorem resolves_exprs {xs : List Syntax.Expr} {es : List Expr} (hn : a.scopes.SameNames Γ)
    (h : ctx.exprs xs a = (.ok es, b)) : (∀ e ∈ es, ctx.Resolves Γ e) ∧ b.scopes = a.scopes := by
  induction xs generalizing es a with
  | nil =>
    unfold exprs at h
    obtain ⟨rfl, rfl⟩ := pure_ok h
    refine ⟨?_, rfl⟩
    intro e he
    cases he
  | cons x xs ih =>
    unfold exprs at h
    obtain ⟨e₀, c, hx, h⟩ := bind_ok h
    obtain ⟨es', d, hxs, h⟩ := bind_ok h
    obtain ⟨rfl, rfl⟩ := pure_ok h
    obtain ⟨first, hc⟩ := resolves_expr hn hx
    obtain ⟨rest, hd⟩ := ih (hc ▸ hn) hxs
    refine ⟨?_, hd.trans hc⟩
    intro e he
    rcases List.mem_cons.1 he with rfl | he
    · exact first
    · exact rest e he

/-! ## Declarations -/

/-- A declaration is in a block exactly if one is open. -/
theorem declareName_ok {name : String} {type : Ty} {inBlock : Bool} (hn : a.scopes.SameNames Γ)
    (h : declareName name type a = (.ok inBlock, b)) (info : Info) (declared : Option Ty) (init : Option Expr)
    (mark : Path → Declared) (p : Path) :
    inBlock = (!Γ.isEmpty)
      ∧ b.scopes.SameNames (Γ.after mark p (.declare info name declared init inBlock)) := by
  have same := hn.isEmpty_eq
  have unfolded : declareName name type a
      = if a.scopes.isEmpty then (.ok false, { a with env := a.env.declare name type })
        else (.ok true, (declareInBlock name type a).2) := by
    unfold declareName
    show (ite (a.scopes.isEmpty) _ _ : Analysis Bool) a = _
    split <;> rfl
  rw [unfolded] at h
  split at h
  · rename_i he
    cases h
    rw [same] at he
    exact ⟨by simp [he], hn⟩
  · rename_i he
    obtain ⟨hr, rfl⟩ := Prod.mk.inj h
    cases hr
    rw [same] at he
    refine ⟨by simp [he], ?_⟩
    rw [declareInBlock_scopes]
    exact hn.declaring _ _ _

/-- One declared name. -/
theorem resolved_declarator {declared : Option Ty} {d : Syntax.Declarator} {s : Stmt} (hn : a.scopes.SameNames Γ)
    (h : ctx.declarator declared d a = (.ok s, b)) (p : Path) :
    ctx.Resolved Γ p s ∧ b.scopes.SameNames (Γ.after (⟨·, true⟩) p s)
      ∧ ∃ info name init inBlock, s = .declare info name declared init inBlock := by
  rw [declarator_eq] at h
  obtain ⟨init, c, hi, h⟩ := bind_ok h
  obtain ⟨_, c', checked, h⟩ := bind_ok h
  obtain ⟨inBlock, e, hd, h⟩ := bind_ok h
  obtain ⟨_, f, hr, h⟩ := bind_ok h
  obtain ⟨rfl, rfl⟩ := pure_ok h
  obtain ⟨resolves, hc⟩ := resolves_expr? hn hi
  rw [← hc, ← (ctx.asks_checkInitial declared init).keepsScopes.scopes_eq checked] at hn
  obtain ⟨block_eq, names⟩ := declareName_ok hn hd ⟨declaredType declared init, d.span⟩ declared init (⟨·, true⟩) p
  rw [← (KeepsScopes.remember _).scopes_eq hr] at names
  exact ⟨⟨resolves, block_eq⟩, names, _, _, _, _, rfl⟩

/-- Names declared one after the other. -/
theorem resolved_declarators {declared : Option Ty} {ds : List Syntax.Declarator} {ss : List Stmt}
    (hn : a.scopes.SameNames Γ) (h : ctx.declarators declared ds a = (.ok ss, b)) (p : Path) (i : Nat) :
    ctx.ResolvedAll Γ p i ss ∧ b.scopes.SameNames (Γ.afterAll (⟨·, true⟩) p i ss)
      ∧ ∀ s ∈ ss, ∃ info name init inBlock, s = .declare info name declared init inBlock := by
  induction ds generalizing Γ ss a i with
  | nil =>
    unfold declarators at h
    obtain ⟨rfl, rfl⟩ := pure_ok h
    refine ⟨trivial, hn, ?_⟩
    intro s hs
    cases hs
  | cons d ds ih =>
    unfold declarators at h
    obtain ⟨s, c, hd, h⟩ := bind_ok h
    obtain ⟨ss', e, hds, h⟩ := bind_ok h
    obtain ⟨rfl, rfl⟩ := pure_ok h
    obtain ⟨first, names, shape⟩ := resolved_declarator hn hd (i :: p)
    obtain ⟨rest, names', shapes⟩ := ih names hds (i + 1)
    refine ⟨⟨first, rest⟩, names', ?_⟩
    intro s' hs
    rcases List.mem_cons.1 hs with rfl | hs
    · exact shape
    · exact shapes s' hs

/-! ## Statements -/

/-- What the analysis of a statement or of a row leaves behind. -/
def ResolvedFrom (ctx : Context) (Γ : Scopes Declared) (ss : List Stmt) (b : AnalysisState) : Prop :=
  ∀ p i, ctx.ResolvedAll Γ p i ss ∧ b.scopes.SameNames (Γ.afterAll (⟨·, true⟩) p i ss)

/-- A statement that declares nothing. -/
theorem ResolvedFrom.of_single {s : Stmt} (hs : ∀ p, Γ.after (⟨·, true⟩) p s = Γ) (h : ∀ p, ctx.Resolved Γ p s)
    (hn : b.scopes.SameNames Γ) : ctx.ResolvedFrom Γ [s] b := by
  intro p i
  refine ⟨⟨h _, trivial⟩, ?_⟩
  show b.scopes.SameNames (Γ.after (⟨·, true⟩) (i :: p) s)
  rw [hs]
  exact hn

/-- A row in a block of its own. -/
theorem ResolvedFrom.of_inBlock {x : Analysis (List Stmt)} {ss : List Stmt} (hn : a.scopes.SameNames Γ)
    (hx : ∀ c d, c.scopes.SameNames Γ.push → x c = (.ok ss, d) → ctx.ResolvedFrom Γ.push ss d)
    (h : Analysis.inBlock x a = (.ok ss, b)) :
    (∀ p, ctx.ResolvedAll Γ.push p 0 ss) ∧ b.scopes.SameNames Γ := by
  obtain ⟨c, hc, hb⟩ := inBlock_ok h
  have inner := hx _ c hn.push hc
  refine ⟨fun p => (inner p 0).1, ?_⟩
  have := (inner [] 0).2.popped
  rw [Scopes.popped_afterAll] at this
  rw [hb]
  exact this

/-- The start of a `for` statement, once it is one statement. -/
theorem ResolvedFrom.single {ss : List Stmt} (h : ctx.ResolvedFrom Γ ss b)
    (shape : ∀ t ∈ ss, ∀ info body, t ≠ .block info body) (p : Path) :
    ctx.ResolvedInit Γ (0 :: p) (some (single ss))
      ∧ b.scopes.SameNames (Γ.afterInit (0 :: p) (some (single ss))) := by
  have row (hs : Context.single ss = .block (effectInfo (.point 0)) ss) :
      ctx.ResolvedInit Γ (0 :: p) (some (Context.single ss))
        ∧ b.scopes.SameNames (Γ.afterInit (0 :: p) (some (Context.single ss))) := by
    rw [hs]
    obtain ⟨resolved, names⟩ := h (0 :: p) 0
    unfold ResolvedInit
    exact ⟨resolved, names.trans (Scopes.SameNames.afterAll _ _ rfl _ _ _)⟩
  match ss, h, shape, row with
  | [], _, _, row => exact row rfl
  | [t], h, shape, _ =>
    obtain ⟨⟨resolved, -⟩, names⟩ := h p 0
    have no_block := shape t List.mem_cons_self
    cases t with
    | block info body => exact absurd rfl (no_block info body)
    | _ =>
      unfold ResolvedInit
      exact ⟨resolved, names⟩
  | _ :: _ :: _, _, _, row => exact row rfl

/-- An expression as a statement; it makes no block. -/
theorem resolved_exprStmt {e : Syntax.Expr} {ss : List Stmt} (hn : a.scopes.SameNames Γ)
    (h : ctx.stmt (.expr e) a = (.ok ss, b)) :
    ctx.ResolvedFrom Γ ss b ∧ ∀ t ∈ ss, ∀ info body, t ≠ .block info body := by
  unfold stmt at h
  obtain ⟨e', c, he, h⟩ := bind_ok h
  obtain ⟨rfl, rfl⟩ := pure_ok h
  obtain ⟨resolves, hc⟩ := resolves_expr hn he
  refine ⟨.of_single (fun _ => rfl) (fun _ => resolves) (hc ▸ hn), ?_⟩
  intro t ht info body
  rw [List.mem_singleton.1 ht]
  exact Stmt.noConfusion

/-- A declaration; it makes no block. -/
theorem resolved_declareStmt {type : Option Syntax.TypeExpr} {ds : List Syntax.Declarator} {ss : List Stmt}
    (hn : a.scopes.SameNames Γ) (h : ctx.stmt (.declare type ds) a = (.ok ss, b)) :
    ctx.ResolvedFrom Γ ss b ∧ ∀ t ∈ ss, ∀ info body, t ≠ .block info body := by
  unfold stmt at h
  obtain ⟨declared, c, ht, h⟩ := bind_ok h
  rw [← (ctx.asks_resolveType? type).keepsScopes.scopes_eq ht] at hn
  refine ⟨fun p i => ?_, ?_⟩
  · obtain ⟨resolved, names, -⟩ := resolved_declarators hn h p i
    exact ⟨resolved, names⟩
  · obtain ⟨-, -, shapes⟩ := resolved_declarators hn h [] 0
    intro t ht info body
    obtain ⟨info', name, init, inBlock, rfl⟩ := shapes t ht
    exact Stmt.noConfusion

/-- The start of a `for` statement is resolved. -/
theorem resolved_start {s : Syntax.Stmt} (hg : Syntax.StartsLoop (some s)) {ts : List Stmt}
    (hn : a.scopes.SameNames Γ) (h : ctx.stmt s a = (.ok ts, b)) (p : Path) :
    ctx.ResolvedInit Γ (0 :: p) (some (single ts))
      ∧ b.scopes.SameNames (Γ.afterInit (0 :: p) (some (single ts))) := by
  cases s with
  | expr e =>
    obtain ⟨resolved, shape⟩ := resolved_exprStmt hn h
    exact resolved.single shape p
  | declare type ds =>
    obtain ⟨resolved, shape⟩ := resolved_declareStmt hn h
    exact resolved.single shape p
  | _ => cases hg

/-- What analysis makes of a row in a block of its own is resolved, whatever the scopes around the block. -/
def ResolvesBlock (ctx : Context) (body : List Syntax.Stmt) : Prop :=
  ∀ ⦃Δ : Scopes Declared⦄ ⦃c d : AnalysisState⦄ ⦃ts : List Stmt⦄, c.scopes.SameNames Δ →
    Analysis.inBlock (ctx.stmts body) c = (.ok ts, d) →
      (∀ p, ctx.ResolvedAll Δ.push p 0 ts) ∧ d.scopes.SameNames Δ

theorem resolved_branchStmt {cond : Syntax.Expr} {thenBody : List Syntax.Stmt} {elseBody : Option (List Syntax.Stmt)}
    (yes : ctx.ResolvesBlock thenBody) (no : ∀ body ∈ elseBody, ctx.ResolvesBlock body) {ss : List Stmt}
    (hn : a.scopes.SameNames Γ) (h : ctx.stmt (.branch cond thenBody elseBody) a = (.ok ss, b)) :
    ctx.ResolvedFrom Γ ss b := by
  unfold stmt at h
  obtain ⟨cond', c, hx, h⟩ := bind_ok h
  obtain ⟨then', d, ht, h⟩ := bind_ok h
  obtain ⟨resolves, hc⟩ := resolves_condition hn hx
  obtain ⟨rows, names⟩ := yes (hc ▸ hn) ht
  cases elseBody with
  | none =>
    obtain ⟨else', e, he, h⟩ := bind_ok h
    obtain ⟨rfl, rfl⟩ := pure_ok he
    obtain ⟨rfl, rfl⟩ := pure_ok h
    exact .of_single (fun _ => rfl) (fun p => ⟨resolves, rows (0 :: p), trivial⟩) names
  | some body =>
    obtain ⟨else', e, he, h⟩ := bind_ok h
    obtain ⟨body', hb, rfl⟩ := map_ok he
    obtain ⟨rfl, rfl⟩ := pure_ok h
    obtain ⟨rows', names'⟩ := no body rfl names hb
    exact .of_single (fun _ => rfl) (fun p => ⟨resolves, rows (0 :: p), rows' (1 :: p)⟩) names'

theorem resolved_whileStmt {cond : Syntax.Expr} {body : List Syntax.Stmt} (block : ctx.ResolvesBlock body)
    {ss : List Stmt} (hn : a.scopes.SameNames Γ) (h : ctx.stmt (.whileLoop cond body) a = (.ok ss, b)) :
    ctx.ResolvedFrom Γ ss b := by
  unfold stmt at h
  obtain ⟨cond', c, hx, h⟩ := bind_ok h
  obtain ⟨body', d, hb, h⟩ := bind_ok h
  obtain ⟨rfl, rfl⟩ := pure_ok h
  obtain ⟨resolves, hc⟩ := resolves_condition hn hx
  obtain ⟨rows, names⟩ := block (hc ▸ hn) hb
  exact .of_single (fun _ => rfl) (fun p => ⟨resolves, rows p⟩) names

/-- The start of a `for` statement stands in the block of the loop, and so does all that follows it. -/
theorem resolved_forStmt {init : Option Syntax.Stmt} {cond : Option Syntax.Expr} {update : List Syntax.Expr}
    {body : List Syntax.Stmt} (hg : Syntax.StartsLoop init) (block : ctx.ResolvesBlock body) {ss : List Stmt}
    (hn : a.scopes.SameNames Γ) (h : ctx.stmt (.forLoop init cond update body) a = (.ok ss, b)) :
    ctx.ResolvedFrom Γ ss b := by
  obtain ⟨c, init', d, h, hb, start⟩ : ∃ c init' d, ctx.loopParts init' cond update body d = (.ok ss, c)
      ∧ b.scopes = c.scopes.popped
      ∧ ∀ p, ctx.ResolvedInit Γ.push (0 :: p) init' ∧ d.scopes.SameNames (Γ.push.afterInit (0 :: p) init') := by
    cases init with
    | none =>
      rw [stmt_forLoop_none] at h
      obtain ⟨c, h, hb⟩ := inBlock_ok h
      exact ⟨c, none, _, h, hb, fun _ => ⟨trivial, hn.push⟩⟩
    | some s =>
      rw [stmt_forLoop_some] at h
      obtain ⟨c, h, hb⟩ := inBlock_ok h
      obtain ⟨ts, d, hs, h⟩ := bind_ok h
      exact ⟨c, _, d, h, hb, fun p => resolved_start hg hn.push hs p⟩
  obtain ⟨cond', e, hx, h⟩ := bind_ok h
  obtain ⟨update', f, hu, h⟩ := bind_ok h
  obtain ⟨body', g, hs, h⟩ := bind_ok h
  obtain ⟨rfl, rfl⟩ := pure_ok h
  have parts (info : Info) (p : Path) : ctx.Resolved Γ p (.forLoop info init' cond' update' body')
      ∧ g.scopes.SameNames (Γ.push.afterInit (0 :: p) init') := by
    obtain ⟨resolved, names⟩ := start p
    obtain ⟨conds, he⟩ := resolves_condition? names hx
    rw [← he] at names
    obtain ⟨updates, hf⟩ := resolves_exprs names hu
    rw [← hf] at names
    obtain ⟨rows, names⟩ := block names hs
    exact ⟨⟨resolved, conds, updates, rows (1 :: p)⟩, names⟩
  -- which path the names have been declared at makes no difference once their block is closed
  have names := (parts ⟨.object, .point 0⟩ []).2.popped
  rw [← hb, Scopes.popped_afterInit] at names
  exact .of_single (fun _ => rfl) (fun p => (parts _ p).1) names

/-- The items of a loop are analyzed before its name is declared. -/
theorem resolved_forEachStmt {type : Option Syntax.TypeExpr} {name : String} {span : Span} {items : Syntax.Expr}
    {body : List Syntax.Stmt} (block : ctx.ResolvesBlock body) {ss : List Stmt} (hn : a.scopes.SameNames Γ)
    (h : ctx.stmt (.forEach type name span items body) a = (.ok ss, b)) : ctx.ResolvedFrom Γ ss b := by
  unfold stmt at h
  obtain ⟨declared, c, ht, h⟩ := bind_ok h
  obtain ⟨items', d, hx, h⟩ := bind_ok h
  obtain ⟨item, e, hi, h⟩ := bind_ok h
  obtain ⟨f, h, hb⟩ := inBlock_ok h
  obtain ⟨_, g, hd, h⟩ := bind_ok h
  obtain ⟨body', g', hs, h⟩ := bind_ok h
  obtain ⟨rfl, rfl⟩ := pure_ok h
  rw [← (ctx.asks_resolveType? type).keepsScopes.scopes_eq ht] at hn
  obtain ⟨resolves, hc⟩ := resolves_expr hn hx
  rw [← hc, ← (ctx.asks_iteratedType items').keepsScopes.scopes_eq hi] at hn
  -- the name of the loop is declared in a block of its own
  have declared_names (p : Path) : g.scopes.SameNames (Γ.push.declaring name ⟨p, true⟩) := by
    have := declareInBlock_scopes name (declared.getD item) { e with scopes := e.scopes.push }
    rw [hd] at this
    rw [this]
    exact hn.push.declaring _ _ _
  have parts (p : Path) := block (declared_names p) hs
  have names := (parts []).2.popped
  rw [← hb, Scopes.popped_declaring] at names
  exact .of_single (fun _ => rfl) (fun p => ⟨resolves, (parts p).1 p⟩) names

theorem resolved_returnStmt {value : Option Syntax.Expr} {ss : List Stmt} (hn : a.scopes.SameNames Γ)
    (h : ctx.stmt (.returns value) a = (.ok ss, b)) : ctx.ResolvedFrom Γ ss b := by
  unfold stmt at h
  obtain ⟨t, c, hr, h⟩ := bind_ok h
  obtain ⟨rfl, rfl⟩ := pure_ok h
  obtain ⟨value', d, hx, hr⟩ := bind_ok hr
  obtain ⟨_, e, hm, hr⟩ := bind_ok hr
  obtain ⟨rfl, rfl⟩ := pure_ok hr
  cases hm
  obtain ⟨resolves, hd⟩ := resolves_expr? hn hx
  rw [← hd] at hn
  exact .of_single (fun _ => rfl) (fun _ => resolves) hn

/-- An import does nothing in a run. -/
theorem resolved_importStmt {path : String} {everything : Bool} {span : Span} {ss : List Stmt}
    (hn : a.scopes.SameNames Γ) (h : ctx.stmt (.importPath path everything span) a = (.ok ss, b)) :
    ctx.ResolvedFrom Γ ss b := by
  unfold stmt at h
  have kept : KeepsScopes (do
      if everything then ctx.importPackage path span else ctx.importClass path span
      return [Stmt.nop ⟨.null, span⟩]) := by
    cases everything with
    | true => exact .bind (ctx.keepsScopes_importPackage path span) fun _ => .pure _
    | false => exact .bind (ctx.keepsScopes_importClass path span) fun _ => .pure _
  rw [← kept.scopes_eq h] at hn
  obtain rfl : ss = [.nop ⟨.null, span⟩] := by
    cases everything <;>
    · obtain ⟨_, c, _, h⟩ := bind_ok h
      exact (pure_ok h).1.symm
  exact .of_single (fun _ => rfl) (fun _ => trivial) hn

mutual

/-- The typed form of a statement is resolved. -/
theorem resolved_stmt {Γ : Scopes Declared} {a b : AnalysisState} (s : Syntax.Stmt) (hg : s.Grammatical)
    {ss : List Stmt} (hn : a.scopes.SameNames Γ) (h : ctx.stmt s a = (.ok ss, b)) : ctx.ResolvedFrom Γ ss b := by
  have block (body : List Syntax.Stmt) (hg : Syntax.Stmt.GrammaticalAll body) (hb : sizeOf body < sizeOf s) :
      ctx.ResolvesBlock body :=
    fun _ _ _ _ hn h => ResolvedFrom.of_inBlock hn (fun _ _ hn h => resolved_stmts body hg hn h) h
  cases s with
  | expr e => exact (resolved_exprStmt hn h).1
  | declare type ds => exact (resolved_declareStmt hn h).1
  | branch cond thenBody elseBody =>
    unfold Syntax.Stmt.Grammatical at hg
    refine resolved_branchStmt (block thenBody hg.1 (by simp +arith)) (fun body else_body => ?_) hn h
    cases else_body
    exact block body hg.2 (by simp +arith)
  | whileLoop cond body => exact resolved_whileStmt (block body hg (by simp +arith)) hn h
  | forLoop init cond update body => exact resolved_forStmt hg.1 (block body hg.2 (by simp +arith)) hn h
  | forEach type name span items body => exact resolved_forEachStmt (block body hg (by simp +arith)) hn h
  | block body =>
    unfold stmt at h
    obtain ⟨body', c, hb, h⟩ := bind_ok h
    obtain ⟨rfl, rfl⟩ := pure_ok h
    obtain ⟨rows, names⟩ := block body hg (by simp +arith) hn hb
    exact .of_single (fun _ => rfl) rows names
  | returns value => exact resolved_returnStmt hn h
  | importPath path everything span => exact resolved_importStmt hn h
termination_by sizeOf s

/-- The typed forms of statements in a row are resolved. -/
theorem resolved_stmts {Γ : Scopes Declared} {a b : AnalysisState} (ss : List Syntax.Stmt)
    (hg : Syntax.Stmt.GrammaticalAll ss) {ts : List Stmt} (hn : a.scopes.SameNames Γ)
    (h : ctx.stmts ss a = (.ok ts, b)) : ctx.ResolvedFrom Γ ts b := by
  cases ss with
  | nil =>
    unfold stmts at h
    obtain ⟨rfl, rfl⟩ := pure_ok h
    exact fun _ _ => ⟨trivial, hn⟩
  | cons s ss =>
    unfold stmts at h
    obtain ⟨first, c, hs, h⟩ := bind_ok h
    obtain ⟨rest, d, hss, h⟩ := bind_ok h
    obtain ⟨rfl, rfl⟩ := pure_ok h
    intro p i
    -- one statement may be analyzed to several, so that the next one stands that many places later
    obtain ⟨resolved, names⟩ := resolved_stmt s hg.1 hn hs p i
    obtain ⟨resolved', names'⟩ := resolved_stmts ss hg.2 names hss p (i + first.length)
    refine ⟨resolved.append resolved', ?_⟩
    rw [Scopes.afterAll_append]
    exact names'
termination_by sizeOf ss

end

end Context

end HostExpr
