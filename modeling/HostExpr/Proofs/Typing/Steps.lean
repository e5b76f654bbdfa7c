import HostExpr.Typing.State

/-!
# Steps of an analysis

What the steps that an analysis is made of do to its state. A block opens a scope and closes it again, and remembers
the names of what it closes.
-/

namespace HostExpr

namespace AnalysisState

/-- The state at the start of a block. -/
def opened (a : AnalysisState) : AnalysisState := { a with scopes := a.scopes.push }

/-- The state behind a block. -/
def closed (a : AnalysisState) : AnalysisState :=
  match a.scopes.pop with
  | .ok (frame, scopes) => { a with scopes := scopes, env := frame.names.foldl Environment.noteBlockName a.env }
  | .error _ => a

/-- The state after a declaration in the innermost block. -/
def declaring (a : AnalysisState) (name : String) (type : Ty) : AnalysisState :=
  match a.scopes.declare name type with
  | .ok scopes => { a with scopes := scopes }
  | .error _ => a

end AnalysisState

namespace Analysis

variable {α β : Type}

/-- The step never gives anything. -/
def Fails (step : Analysis α) : Prop := ∀ a b r, step a ≠ (.ok r, b)

/-- A step that only tells something about the state. -/
def Tells (step : Analysis α) (answer : AnalysisState → α) : Prop := ∀ a, step a = (.ok (answer a), a)

theorem Fails.fail (cause : CompileCause) (span : Span) : Fails (Analysis.fail cause span : Analysis α) := by
  intro a b r h
  cases h

/-- Where the first step gives something, the second one takes over. -/
theorem bind_of_ok {x : Analysis α} {f : α → Analysis β} {a b : AnalysisState} {r : α} (h : x a = (.ok r, b)) :
    (x >>= f) a = f r b := by
  rw [bind_eq_bindCont, h]
  rfl

/-- A question is answered from the state, which stays as it is. -/
theorem Tells.bind_apply {x : Analysis α} {answer : AnalysisState → α} (h : Tells x answer) (f : α → Analysis β)
    (a : AnalysisState) : (x >>= f) a = f (answer a) a := by
  rw [bind_eq_bindCont, h a]
  rfl

/-- What comes of a block comes of its body. -/
theorem inBlock_apply (body : Analysis α) (a : AnalysisState) :
    inBlock body a = ((body a.opened).1, (body a.opened).2.closed) := by
  unfold inBlock AnalysisState.closed
  show (match (body a.opened).2.scopes.pop with
    | .ok (frame, scopes) => _
    | .error _ => _) = _
  split <;> rfl

theorem declareInBlock_apply (name : String) (type : Ty) (a : AnalysisState) :
    declareInBlock name type a = (.ok (), a.declaring name type) := rfl

end Analysis

end HostExpr
