import HostExpr.Engine.Basic

/-!
# What compilation gives

A compiled expression comes from a successful parse and a successful analysis of its source.
-/

namespace HostExpr

/-- A result that passes a check is there. -/
theorem exists_ok_of_any {ε α : Type} {result : Except ε α} {check : α → Bool} (h : result.toOption.any check) :
    ∃ a, result = .ok a ∧ check a := by
  cases result with
  | error e => cases h
  | ok a => exact ⟨a, rfl, h⟩

namespace Compiler

/-- What a compiler gives that has not run is analyzed from its source, and its call sites are fresh. -/
theorem run_ok {c : Compiler} {env env' : Environment} {c' : Compiler} {x : Expression}
    (h : c.run env = (.ok (some x), env', c')) :
    ∃ body program, Syntax.parse c.source = .ok body
      ∧ c.context.analyze c.isSetter body env = (.ok program, env')
      ∧ x = .fresh program env' c.isSetter c.engine.limits := by
  unfold run at h
  split at h
  · exact absurd (congrArg Prod.fst h) (by simp)
  · split at h
    · exact absurd (congrArg Prod.fst h) (by simp)
    · rename_i program env₁ analyzed
      split at h
      · exact absurd (congrArg Prod.fst h) (by simp)
      · simp only [Prod.mk.injEq, Except.ok.injEq, Option.some.injEq] at h
        obtain ⟨rfl, rfl, -⟩ := h
        unfold analyze at analyzed
        split at analyzed
        · exact absurd (congrArg Prod.fst analyzed) (by simp)
        · rename_i body parsed
          exact ⟨body, program, parsed, analyzed, rfl⟩

end Compiler

namespace Engine

variable {e : Engine} {source : String} {isSetter : Bool} {config : Config} {x : Expression}

/-- A compiled expression is analyzed from its source, and its call sites are fresh. -/
theorem compile_ok (h : e.compile source isSetter config = .ok x) :
    ∃ body program env, Syntax.parse source = .ok body
      ∧ (e.compiler source false isSetter).context.analyze isSetter body (.ofConfig config) = (.ok program, env)
      ∧ x = .fresh program env isSetter e.limits := by
  unfold compile at h
  generalize hr : (e.compiler source false isSetter).run (.ofConfig config) = result at h
  obtain ⟨outcome, env, c⟩ := result
  rcases outcome with err | _ | y
  · exact absurd h (by simp)
  · exact absurd h (by simp)
  · obtain ⟨body, program, parsed, analyzed, hy⟩ := Compiler.run_ok hr
    have same : y = x := Except.ok.inj h
    exact ⟨body, program, env, parsed, analyzed, same ▸ hy⟩

end Engine

end HostExpr
