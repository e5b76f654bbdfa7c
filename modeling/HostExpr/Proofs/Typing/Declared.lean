import HostExpr.Proofs.Typing.Ruled
import HostExpr.Proofs.Typing.Parts

/-!
# Names declared for the whole program

A name that a top-level statement declares is a variable from there on. No assignment behind the statement declares it
again; and if no later statement does, whatever stands there takes the name for a variable of the declared type and
makes what it assigns fit that type: `uses_of_compile`.
-/

namespace HostExpr

open Typed

namespace Typed.Stmt

/-- The name that a statement declares for the whole program. -/
def global? : Stmt → Option String
  | declare _ name _ _ false => some name
  | _ => none

/-- Behind a declaration for the whole program no assignment declares the name. -/
def Settled (ss : List Stmt) : Prop :=
  ss.Pairwise fun s t => ∀ name ∈ s.global?, ∀ e ∈ t.parts, e.opened? ≠ some name

end Typed.Stmt

/-! ## Declarations and assignments -/

namespace Context

open Analysis

variable {ctx : Context} {config : Config} {a b c : AnalysisState} {ss ss' : List Stmt}

/-- From one state to a later one an analysis makes statements; what they declare for the whole program are variables
behind them, also for the statements among themselves. -/
structure Settles (ctx : Context) (a : AnalysisState) (ss : List Stmt) (b : AnalysisState) : Prop where
  made : ctx.Made a (Stmt.partsAll ss) b
  globals : ∀ s ∈ ss, ∀ name ∈ s.global?, b.env.vars.has name
  settled : Stmt.Settled ss

namespace Settles

/-- Statements that declare nothing for the whole program. -/
theorem of_plain (made : ctx.Made a (Stmt.partsAll ss) b) (plain : ∀ s ∈ ss, s.global? = none) :
    ctx.Settles a ss b := by
  have none_of_mem {s : Stmt} (hs : s ∈ ss) {name : String} (hn : name ∈ s.global?) : False := by
    rw [plain s hs] at hn
    cases hn
  refine ⟨made, fun s hs name hn => (none_of_mem hs hn).elim, List.pairwise_of_forall_mem_list ?_⟩
  exact fun s hs t _ name hn => (none_of_mem hs hn).elim

/-- An assignment of the second row declares no variable of the first one. -/
theorem append (h : ctx.Settles a ss b) (h' : ctx.Settles b ss' c) : ctx.Settles a (ss ++ ss') c where
  made := by
    rw [Stmt.partsAll_append]
    exact h.made.trans h'.made
  globals s hs name hn := by
    rcases List.mem_append.1 hs with hs | hs
    · exact h'.made.vars name (h.globals s hs name hn)
    · exact h'.globals s hs name hn
  settled := by
    refine List.pairwise_append.2 ⟨h.settled, h'.settled, fun s hs t ht name hn e he opens => ?_⟩
    exact h'.made.opened e (Stmt.mem_partsAll.2 ⟨t, ht, he⟩) name opens (h.globals s hs name hn)

end Settles

/-- Well-typed statements of a block declare nothing for the whole program. -/
theorem StmtsTyped.global?_eq {z : AnalysisState} {Θ : Scopes Ty} (h : ctx.StmtsTyped config z Θ ss) :
    ∀ s ∈ ss, s.global? = none := by
  induction ss generalizing Θ with
  | nil => exact fun s hs => by cases hs
  | cons s ss ih =>
    refine List.forall_mem_cons.2 ⟨?_, ih h.2⟩
    have first := h.1
    cases s with
    | declare i name declared init inBlock =>
      obtain ⟨-, -, rfl, -⟩ := first
      rfl
    | _ => rfl

theorem has_declareName (name : String) (type : Ty) :
    Yields (declareName name type) a fun inBlock b => inBlock = false → b.env.vars.has name := by
  unfold declareName
  refine .get ?_
  split
  · refine .bind fun _ b declared => .pure fun _ => ?_
    cases declared
    show (a.env.vars.put name type).has name
    simp
  · exact .bind fun _ b _ => .pure fun inside => by cases inside

theorem settles_declarator (declared : Option Ty) (d : Syntax.Declarator) :
    Yields (ctx.declarator declared d) a fun s b => ctx.Settles a [s] b := by
  intro s b made
  have parts := (made_declarator declared d made).one
  have named : Yields (ctx.declarator declared d) a fun s b => ∀ name ∈ s.global?, b.env.vars.has name := by
    rw [declarator_eq]
    refine .bind fun init _ _ => .bind fun _ _ _ => .bind fun inBlock _ declares => ?_
    refine .bind fun _ _ remembered => .pure fun name hn => ?_
    have has := has_declareName d.name _ declares
    cases inBlock with
    | true => cases hn
    | false =>
      cases hn
      cases remembered
      exact Environment.has_rememberParams (has rfl) _
  exact ⟨parts, List.forall_mem_singleton.2 (named made), List.pairwise_singleton _ _⟩

theorem settles_declarators (declared : Option Ty) (ds : List Syntax.Declarator) :
    Yields (ctx.declarators declared ds) a fun ss b => ctx.Settles a ss b := by
  induction ds generalizing a with
  | nil => exact .pure (.of_plain (.refl ctx a) fun s hs => by cases hs)
  | cons d ds ih =>
    unfold declarators
    exact .bind fun s b made => .bind fun ss c rest => .pure ((settles_declarator declared d made).append (ih rest))

theorem settles_stmt (s : Syntax.Stmt) (hg : s.Grammatical) (under : a.env.Under config) :
    Yields (ctx.stmt s) a fun ss b => ctx.Settles a ss b := by
  by_cases declares : ∃ type ds, s = .declare type ds
  · obtain ⟨type, ds, rfl⟩ := declares
    unfold stmt
    refine .bind fun declared b resolved => ?_
    rw [(ctx.asks_resolveType? type).eq_of_ok resolved]
    exact settles_declarators declared ds
  · -- no other statement declares a name for the whole program
    have plain : ∀ type ds, s ≠ .declare type ds := fun type ds same => declares ⟨type, ds, same⟩
    exact fun ss b made => .of_plain (made_stmt s a made) (typed_stmt s hg a under (.inr plain) made).typed.global?_eq

theorem settles_stmts (ss : List Syntax.Stmt) (hg : Syntax.Stmt.GrammaticalAll ss) (under : a.env.Under config)
    (scopes : a.scopes = .empty) : Yields (ctx.stmts ss) a fun rs b => ctx.Settles a rs b := by
  induction ss generalizing a with
  | nil =>
    unfold stmts
    exact .pure (.of_plain (.refl ctx a) fun s hs => by cases hs)
  | cons s ss ih =>
    unfold stmts
    refine .bind fun first b made => .bind fun rest c made' => .pure ?_
    have before := continued_stmt s hg.1 under scopes made
    exact (settles_stmt s hg.1 under made).append (ih hg.2 before.under before.scopes made')

/-- In a program that an analysis gives no assignment declares a name behind its declaration. -/
theorem settled_of_analyze {body : List Syntax.Stmt} (hg : Syntax.Stmt.GrammaticalAll body) {env : Environment}
    {p : Program} (h : ctx.analyze false body (.ofConfig config) = (.ok p, env)) : Stmt.Settled p.body := by
  have settled : Yields (ctx.program body) (.ofEnvironment (.ofConfig config)) fun p _ => Stmt.Settled p.body := by
    unfold program
    refine .bind fun ss b made => .get (.pure ?_)
    have under : (AnalysisState.ofEnvironment (.ofConfig config)).env.Under config := ⟨rfl, rfl, rfl⟩
    exact (settles_stmts body hg under rfl made).settled
  unfold analyze at h
  obtain ⟨outcome, -⟩ := Prod.mk.inj h
  exact settled (Prod.ext outcome rfl)

end Context

/-! ## What is known of the name -/

/-- A part takes the name for a variable of the type: it does not read it as an input, and what it assigns to it is made
to fit the type. -/
def Typed.Expr.Uses (name : String) (t : Ty) : Expr → Prop
  | .declared i other => other = name → i.type = t
  | .input _ other _ => other ≠ name
  | .assign _ target _ _ stored => ∀ i, target = .declared i name → stored = some t
  | _ => True

namespace Context

variable {ctx : Context} {config : Config} {last : AnalysisState} {env : Environment} {name : String} {t : Ty}
  {ss pre post : List Stmt}

/-- Behind its declaration a name is a variable of the declared type. -/
theorem ProgramTyped.declared {i : Info} {declared : Option Ty} {init : Option Expr}
    (h : ctx.ProgramTyped config last env (pre ++ .declare i name declared init false :: post)) (apart : env.Apart) :
    ∃ env', ctx.ProgramTyped config last env' post ∧ env'.Apart ∧ env'.vars.get? name = some i.type
      ∧ i.type = declaredType declared init := by
  induction pre generalizing env with
  | nil =>
    cases h with
    | declare grows returns typed type rest =>
      refine ⟨_, rest, (grows.apart apart).declare name i.type, ?_, type⟩
      rw [Environment.declare, Table.get?_put, if_pos rfl]
    | other grows returns typed rest => cases typed.2.2.1
  | cons s pre ih =>
    cases h with
    | declare grows returns typed type rest => exact ih rest ((grows.apart apart).declare _ _)
    | other grows returns typed rest => exact ih rest (grows.apart apart)

/-- A name that is a variable is not read as an input, and has its type wherever no block declares it. -/
theorem ObeysWithin.known {z : AnalysisState} {names : List String} {e : Expr}
    (h : ctx.ObeysWithin config z .empty names e) (apart : z.env.Apart) (ht : z.env.vars.get? name = some t)
    (out : name ∉ names) :
    (∀ i, e = .declared i name → i.type = t) ∧ ∀ i site, e ≠ .input i name site := by
  obtain ⟨Θ, obeys, free⟩ := h
  have named := obeys.named
  refine ⟨fun i same => ?_, fun i site same => ?_⟩
  · subst same
    have named : (Θ.lookup name).or (z.env.vars.get? name) = some i.type := named
    rw [free name rfl out, ht] at named
    exact (Option.some.inj named).symm
  · subst same
    have named : z.env.inputs.get? name = some i.type := named
    rcases apart name with unknown | unknown
    · rw [ht] at unknown
      cases unknown
    · rw [named] at unknown
      cases unknown

/-- A variable that no statement of a row declares keeps its type in all of them. -/
theorem ProgramTyped.known (h : ctx.ProgramTyped config last env ss) (apart : env.Apart)
    (ht : env.vars.get? name = some t) (out : name ∉ Stmt.declaredNamesAll ss) :
    ∀ e ∈ Stmt.partsAll ss, (∀ i, e = .declared i name → i.type = t) ∧ ∀ i site, e ≠ .input i name site := by
  induction h with
  | nil grows => exact fun e he => by cases he
  | @declare env z i other declared init ss grows returns typed type rest ih =>
    intro e he
    rcases List.mem_append.1 he with he | he
    · exact (within_of_optional init typed [] e he).known (grows.apart apart) (grows.vars ht) List.not_mem_nil
    · refine ih ((grows.apart apart).declare _ _) ?_ (fun listed => out (List.mem_append_right _ listed)) e he
      -- the declaration of another name leaves the type of this one
      have differs : name ≠ other := fun same => out (List.mem_append_left _ (List.mem_singleton.2 same))
      rw [Environment.declare, Table.get?_put, if_neg differs]
      exact grows.vars ht
  | @other env z s ss grows returns typed rest ih =>
    intro e he
    rcases List.mem_append.1 he with he | he
    · exact (typed.within s e he).known (grows.apart apart) (grows.vars ht)
        fun listed => out (List.mem_append_left _ listed)
    · exact ih (grows.apart apart) (grows.vars ht) (fun listed => out (List.mem_append_right _ listed)) e he

/-- What an assignment to a variable stores is made to fit its type, unless the assignment declares it. -/
theorem Rule.stored_eq {j : Info} {op : AssignOp} {v : Expr} {stored : Option Ty} {info : Info}
    (h : ctx.Rule config (.assign info (.declared j name) op v stored)) (static : j.type.isDynamic = false)
    (plain : (Expr.assign info (.declared j name) op v stored).opened? ≠ some name) : stored = some j.type := by
  have own : storedType? j.type = some j.type := if_neg (by simp [static])
  cases op with
  | plain =>
    obtain ⟨-, takes⟩ := h
    cases takes with
    | written checked => exact own
    | bare bare => exact own
    | declared name span value =>
      refine absurd ?_ plain
      exact if_neg (by simp [static])
  | compound op =>
    obtain ⟨result, -, rfl, -⟩ := h
    exact own

end Context

/-- Behind a top-level declaration with a type, and if no later statement declares the name, all parts of a compiled
program take the name for a variable of this type. -/
theorem Engine.uses_of_compile {e : Engine} {source : String} {config : Config} {x : Expression}
    (h : e.compile source false config = .ok x) {pre post : List Stmt} {i : Info} {name : String} {t : Ty}
    {init : Option Expr} (body : x.program.body = pre ++ .declare i name (some t) init false :: post)
    (static : t.isDynamic = false) (out : name ∉ Stmt.declaredNamesAll post) :
    ∀ n ∈ Stmt.partsAll post, n.Uses name t := by
  obtain ⟨tree, program, env, parsed, analyzed, rfl⟩ := compile_ok h
  have grammatical := Syntax.grammatical_parse parsed
  have settled := Context.settled_of_analyze grammatical analyzed
  obtain ⟨last, -, typed, -⟩ := Context.typed_of_analyze grammatical analyzed
  have body : program.body = _ := body
  rw [body] at settled typed
  obtain ⟨env', behind, apart, ht, type⟩ := typed.declared fun _ => .inl rfl
  have known := behind.known apart (ht.trans (congrArg some type)) out
  intro n hn
  cases n with
  | declared j other =>
    rintro rfl
    exact (known _ hn).1 j rfl
  | input j other site =>
    rintro rfl
    exact (known _ hn).2 j site rfl
  | assign info target op v stored =>
    -- the target is a part as well, so it has the declared type, and the value is made to fit it
    rintro j rfl
    have mem : Expr.declared j name ∈ Stmt.partsAll post :=
      Stmt.parts_subset_all post hn (List.mem_cons_of_mem _ (List.mem_append_left _ List.mem_cons_self))
    have type : j.type = t := (known _ mem).1 j rfl
    obtain ⟨s, hs, part⟩ := Stmt.mem_partsAll.1 hn
    have plain := List.rel_of_pairwise_cons (List.pairwise_append.1 settled).2.1 hs name rfl _ part
    rw [Context.Rule.stored_eq (behind.rule _ hn) (by rw [type, static]) plain, type]
  | _ => trivial

end HostExpr
