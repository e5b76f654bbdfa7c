import HostExpr.Proofs.Engine.Compile
import HostExpr.Proofs.Grammar.Loops
import HostExpr.Proofs.Scope.Analyzed
import HostExpr.Proofs.Scope.Stmt

/-!
# Names mean in a run what they mean to analysis

Analysis resolves a name by the blocks of the text, a run by the frames that are open. In every compiled program the
two agree, but for the names of a row of declarators at the start of a `for` statement: these are in scope until the
statement ends, and their frame is closed before it goes on.
-/

namespace HostExpr

/-- The statements of a compiled program are resolved. -/
theorem Engine.resolved_of_compile {e : Engine} {source : String} {config : Config} {x : Expression}
    (h : e.compile source false config = .ok x) :
    (e.compiler source false false).context.ResolvedAll .empty [] 0 x.program.body := by
  obtain ⟨body, program, env, parsed, analyzed, rfl⟩ := compile_ok h
  have grammatical := Syntax.grammatical_parse parsed
  generalize (e.compiler source false false).context = ctx at analyzed ⊢
  obtain ⟨outcome_eq, -⟩ := Prod.mk.inj analyzed
  have typed : ctx.program body (.ofEnvironment (.ofConfig config))
      = (.ok program, (ctx.program body (.ofEnvironment (.ofConfig config))).2) := Prod.ext outcome_eq rfl
  obtain ⟨ts, a, hs, rest⟩ := Analysis.bind_ok typed
  obtain ⟨s, b, -, rest⟩ := Analysis.bind_ok rest
  obtain ⟨rfl, -⟩ := Analysis.pure_ok rest
  have names : (AnalysisState.ofEnvironment (.ofConfig config)).scopes.SameNames (.empty : Scopes Declared) := rfl
  exact (ctx.resolved_stmts body grammatical names hs [] 0).1

namespace Setting

/-- All accesses in a tracked run of a program are sound, and without the marks the run is the plain one. -/
theorem tracks_runProgram (σ : Setting) (p : Typed.Program) :
    Tracks (·.Fits .empty) (Tracking.runProgram σ p) (σ.runProgram p) fun _ _ => True := by
  unfold Tracking.runProgram runProgram
  have body := σ.follows_runAll Covers.empty (p := []) (i := 0) ?_ p.body .null
  · exact body.map _ fun _ _ _ => trivial
  · intro j _
    constructor
    · rintro d ⟨frame, hf, -⟩
      cases hf
    · rintro d ⟨frame, hf, -⟩
      cases hf

end Setting

/-- **Scoping agreement.** The statements of a compiled program are resolved in the scopes that the text lets expect.
Whatever the root, the bindings and the limits are: a tracked run does what the plain run does, and every access to a
name in scope finds, in a frame that is open, what the latest execution of its declaration made, and leaves the
caller's bindings alone. Only an access to a name of a row of declarators at the start of a `for` statement never does:
if it finds something in a frame, it is of another declaration. -/
theorem Engine.compile_scoping {e : Engine} {source : String} {config : Config} {x : Expression}
    (h : e.compile source false config = .ok x) :
    (e.compiler source false false).context.ResolvedAll .empty [] 0 x.program.body
    ∧ ∀ (σ : Setting) (store : Store) (bindings : Table Value) (sites : Array Site),
      let (outcome, t) := Tracking.runProgram σ x.program (.start store bindings sites)
      σ.runProgram x.program (.start store bindings sites) = (outcome, t.erase)
      ∧ ∀ a ∈ t.marks.accesses, a.Sound := by
  refine ⟨resolved_of_compile h, fun σ store bindings sites => ?_⟩
  have fits : (Tracked.start store bindings sites).marks.Fits .empty := by
    refine ⟨rfl, ?_⟩
    rintro entry ⟨frame, hf, -⟩
    cases hf
  have none : (Tracked.start store bindings sites).marks.Sound := by
    intro a ha
    cases ha
  obtain ⟨same, sound, -⟩ := σ.tracks_runProgram x.program _ fits none
  exact ⟨same, sound⟩

/-! ## A loop that starts with two declarators -/

/-- An engine without host classes and functions. -/
def Engine.bare : Engine := ⟨.bare, .builtin, [], .default⟩

/-- A setting for short runs. -/
def Setting.bare : Setting := ⟨.bare, .universal, .default, 9, .null⟩

/-- A program that reads a name of a row of declarators, and a name of the body of the loop. -/
def twoDeclarators : String := "for (int i = 0, j = 10; ; i++) { int k = j; return k; }"

/-- The second declarator is not found where the loop reads it, the declaration in the body is. -/
theorem compile_scoping_twoDeclarators :
    ∃ x, Engine.bare.compile twoDeclarators false .default = .ok x
      ∧ let (_, t) := Tracking.runProgram .bare x.program (.start (.ofHeap .empty) [] #[])
        (∀ a ∈ t.marks.accesses, a.Sound)
        ∧ t.marks.accesses.map (fun a => (a.declared, a.found))
          = [(⟨[0, 1, 0], true⟩, some ⟨[0, 1, 0], 1⟩), (⟨[1, 0, 0], false⟩, none)] := by
  have found : (Engine.bare.compile twoDeclarators false .default).toOption.any fun x =>
      decide ((Tracking.runProgram .bare x.program (.start (.ofHeap .empty) [] #[])).2.marks.accesses.map
          (fun a => (a.declared, a.found))
        = [(⟨[0, 1, 0], true⟩, some ⟨[0, 1, 0], 1⟩), (⟨[1, 0, 0], false⟩, none)]) := by
    decide +kernel
  obtain ⟨x, hx, accesses⟩ := exists_ok_of_any found
  have sound := ((Engine.compile_scoping hx).2 .bare (.ofHeap .empty) [] #[]).2
  exact ⟨x, hx, sound, of_decide_eq_true accesses⟩

end HostExpr
