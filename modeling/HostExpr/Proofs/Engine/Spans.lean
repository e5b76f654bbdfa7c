import HostExpr.Engine.Basic
import HostExpr.Proofs.Syntax.Placed
import HostExpr.Proofs.Typing.Spans

/-!
# Spans of a source

Whatever the source of a compiler is, and whatever it is compiled against: each span in its syntax tree, in its typed
tree and in the error that refuses it is one that the source can be cut by.
-/

namespace HostExpr

/-- The whole source, and the empty span at its start. -/
theorem Span.usable_of_bounds (source : String) :
    (Span.point 0).Usable source ∧ (Span.mk 0 (byteLength source.toList)).Usable source := by
  have reaches : (Cursor.ofList source.toList).Reaches ⟨[], byteLength source.toList⟩ :=
    ⟨source.toList, (List.append_nil _).symm, (Nat.zero_add _).symm⟩
  exact ⟨(Span.Between.of_reaches (.refl (.ofList source.toList))).usable, (Span.Between.of_reaches reaches).usable⟩

/-- All spans of a source are usable: those of its syntax tree, in which expressions span those right below them, those
of its typed tree, and that of the error where it has no such tree. -/
theorem Compiler.usable_spans (c : Compiler) (limit : Nat) (env : Environment) :
    match Syntax.parseWithLimit limit c.source with
    | .error e => e.span.Usable c.source
    | .ok body =>
      (∀ s ∈ body, s.Placed (Span.Usable c.source))
        ∧ match (c.context.analyze c.isSetter body env).1 with
          | .error e => e.span.Usable c.source
          | .ok p => ∀ s ∈ p.body, s.Placed (Span.Usable c.source) := by
  have parsed := Syntax.places_parseWithLimit limit c.source
  generalize Syntax.parseWithLimit limit c.source = outcome at parsed ⊢
  cases parsed with
  | error span => exact span
  | @ok body placed =>
    refine ⟨placed, ?_⟩
    -- errors that concern the whole program are reported at its start, or at all of it
    obtain ⟨start, whole⟩ := Span.usable_of_bounds c.source
    have typed := c.context.placed_analyze start whole placed c.isSetter env
    split
    · rename_i e refused
      rw [refused] at typed
      exact typed
    · rename_i p accepted
      rw [accepted] at typed
      exact typed

end HostExpr
