import HostExpr.Proofs.Typing.Steps

/-!
# Steps of an analysis that strictness only filters

Under looser settings an analysis rejects no more. A step is *relaxed* if whatever it gives under some settings it gives
under all looser ones, with the same state but for the settings. Most steps do not look at the settings at all, and
those that do look at them only to fail: `Relaxes.guarded` is the rule for these.
-/

namespace HostExpr

/-- What an analysis rejects. -/
structure Strictness where
  /-- What cannot be resolved. -/
  strong : Bool
  /-- Names that would become inputs, and with `strong` also members of receivers of unknown type. -/
  strict : Bool

/-- Settings that ask for no more than others. -/
structure Strictness.Within (s t : Strictness) : Prop where
  strong : s.strong → t.strong
  strict : s.strict → t.strict

namespace Environment

/-- The strictness among the settings. -/
def strictness (env : Environment) : Strictness := ⟨env.strong, env.strict⟩

/-- The environment with another strictness. -/
def under (env : Environment) (s : Strictness) : Environment := { env with strong := s.strong, strict := s.strict }

end Environment

/-- The state with another strictness. -/
def AnalysisState.under (a : AnalysisState) (s : Strictness) : AnalysisState := { a with env := a.env.under s }

namespace Analysis

variable {α β : Type}

/-- What the step gives it also gives under looser settings, and it leaves the settings alone. -/
def Relaxes (step : Analysis α) : Prop :=
  ∀ a b r, step a = (.ok r, b) → b.env.strictness = a.env.strictness
    ∧ ∀ s : Strictness, s.Within a.env.strictness → step (a.under s) = (.ok r, b.under s)

/-- A change of the environment that has nothing to do with the settings. -/
def Unsettled (f : Environment → Environment) : Prop :=
  ∀ env : Environment, (f env).strictness = env.strictness ∧ ∀ s, f (env.under s) = (f env).under s

namespace Relaxes

theorem pure (r : α) : Relaxes (Pure.pure r) := by
  rintro a b q ⟨⟩
  exact ⟨rfl, fun _ _ => rfl⟩

theorem of_fails {x : Analysis α} (h : Fails x) : Relaxes x := fun a b r hx => absurd hx (h a b r)

theorem fail (cause : CompileCause) (span : Span) : Relaxes (Analysis.fail cause span : Analysis α) :=
  of_fails (.fail cause span)

/-- One step after the other. -/
theorem bind {x : Analysis α} {f : α → Analysis β} (hx : Relaxes x) (hf : ∀ q, Relaxes (f q)) :
    Relaxes (x >>= f) := by
  intro a b r h
  obtain ⟨q, c, hq, h⟩ := of_bind_ok h
  obtain ⟨kept, first⟩ := hx a c q hq
  obtain ⟨kept', second⟩ := hf q c b r h
  refine ⟨kept'.trans kept, fun s hs => ?_⟩
  rw [bind_eq_bindCont, first s hs]
  exact second s (kept ▸ hs)

theorem map {x : Analysis α} (f : α → β) (hx : Relaxes x) : Relaxes (f <$> x) := hx.bind fun r => .pure (f r)

/-- A step that looks at the state. If it does not do the same under looser settings, it fails. -/
theorem ask {question : Analysis β} {answer : AnalysisState → β} (hq : Tells question answer) {f : β → Analysis α}
    (hf : ∀ q, Relaxes (f q))
    (filters : ∀ a (s : Strictness), s.Within a.env.strictness →
      f (answer (a.under s)) = f (answer a) ∨ Fails (f (answer a))) : Relaxes (question >>= f) := by
  intro a b r h
  rw [hq.bind_apply] at h
  obtain ⟨kept, same⟩ := hf _ a b r h
  refine ⟨kept, fun s hs => ?_⟩
  rw [hq.bind_apply]
  rcases filters a s hs with eq | fails
  · rw [eq]
    exact same s hs
  · exact absurd h (fails a b r)

/-- A step that looks at one setting, and fails if it does something else with the setting than without. -/
theorem guarded {question : Analysis Bool} (answer : Strictness → Bool)
    (hq : Tells question fun a => answer a.env.strictness) (mono : ∀ s t, s.Within t → answer s → answer t)
    {f : Bool → Analysis α} (hf : Relaxes (f false)) (strict : f true = f false ∨ Fails (f true)) :
    Relaxes (question >>= f) := by
  have both (q : Bool) : Relaxes (f q) := by
    cases q with
    | false => exact hf
    | true =>
      rcases strict with eq | fails
      · rw [eq]
        exact hf
      · exact of_fails fails
  refine ask hq both fun a s hs => ?_
  show f (answer s) = f (answer a.env.strictness) ∨ Fails (f (answer a.env.strictness))
  -- the answer is yes under both, no under both, or yes only where it is stricter
  cases ha : answer a.env.strictness with
  | true =>
    rcases strict with eq | fails
    · cases answer s with
      | true => exact Or.inl rfl
      | false => exact Or.inl eq.symm
    · exact Or.inr fails
  | false =>
    have : answer s = false := by
      cases ht : answer s with
      | false => rfl
      | true => simp [mono s _ hs ht] at ha
    rw [this]
    exact Or.inl rfl

/-- A step that rejects something where what cannot be resolved is rejected. -/
theorem strong {f : Bool → Analysis α} (hf : Relaxes (f false)) (strict : f true = f false ∨ Fails (f true)) :
    Relaxes (Analysis.strong >>= f) :=
  guarded Strictness.strong (fun _ => rfl) (fun _ _ h => h.strong) hf strict

/-- A step that rejects something where members of receivers of unknown type are rejected. -/
theorem rejectsDynamic {f : Bool → Analysis α} (hf : Relaxes (f false)) (strict : f true = f false ∨ Fails (f true)) :
    Relaxes (Analysis.rejectsDynamic >>= f) := by
  refine guarded (fun s => s.strong && s.strict) (fun _ => rfl) (fun s t h asked => ?_) hf strict
  rw [Bool.and_eq_true] at asked ⊢
  exact ⟨h.strong asked.1, h.strict asked.2⟩

theorem modifyEnv {f : Environment → Environment} (hf : Unsettled f) : Relaxes (Analysis.modifyEnv f) := by
  rintro a b r ⟨⟩
  refine ⟨(hf a.env).1, fun s _ => ?_⟩
  show (Except.ok (), AnalysisState.mk (f (a.env.under s)) a.scopes a.nextSite a.returns) = _
  rw [(hf a.env).2 s]
  rfl

theorem newSite : Relaxes Analysis.newSite := by
  rintro a b r ⟨⟩
  exact ⟨rfl, fun _ _ => rfl⟩

end Relaxes

/-! ## Changes of the environment -/

namespace Unsettled

theorem comp {f g : Environment → Environment} (hf : Unsettled f) (hg : Unsettled g) : Unsettled (f ∘ g) := by
  intro env
  refine ⟨(hf _).1.trans (hg _).1, fun s => ?_⟩
  show f (g (env.under s)) = _
  rw [(hg env).2 s, (hf _).2 s]
  rfl

/-- Changes one after the other, one for each item of a list. -/
theorem foldl {γ : Type} {f : Environment → γ → Environment} (hf : ∀ c, Unsettled (f · c)) (cs : List γ) :
    Unsettled (cs.foldl f ·) := by
  induction cs with
  | nil => exact fun _ => ⟨rfl, fun _ => rfl⟩
  | cons c cs ih => exact ih.comp (hf c)

theorem declare (name : String) (type : Ty) : Unsettled (·.declare name type) := fun _ => ⟨rfl, fun _ => rfl⟩

theorem addImport (name : String) (what : Import) : Unsettled (·.addImport name what) := fun _ => ⟨rfl, fun _ => rfl⟩

theorem rememberParams (params : List Ty) : Unsettled (·.rememberParams params) := by
  intro env
  unfold Environment.rememberParams
  split
  · exact ⟨rfl, fun _ => rfl⟩
  · exact ⟨rfl, fun _ => rfl⟩

theorem addInput (name : String) (type : Ty) : Unsettled (·.addInput name type) := by
  intro env
  have same (s : Strictness) : (env.under s).vars = env.vars := rfl
  unfold Environment.addInput
  simp only [same]
  split
  · exact ⟨rfl, fun _ => rfl⟩
  · exact ⟨rfl, fun _ => rfl⟩

theorem noteBlockName (name : String) : Unsettled (·.noteBlockName name) := by
  intro env
  have same (s : Strictness) : (env.under s).blockDeclared = env.blockDeclared := rfl
  unfold Environment.noteBlockName
  simp only [same]
  split
  · exact ⟨rfl, fun _ => rfl⟩
  · exact ⟨rfl, fun _ => rfl⟩

end Unsettled

namespace Relaxes

theorem remember (t : Ty) : Relaxes (Analysis.remember t) := .modifyEnv (.rememberParams t.args)

/-- A declaration in the innermost block. -/
theorem declareInBlock (name : String) (type : Ty) : Relaxes (Analysis.declareInBlock name type) := by
  intro a b r h
  rw [declareInBlock_apply] at h
  cases h
  have same (s : Strictness) : (a.under s).declaring name type = (a.declaring name type).under s := by
    unfold AnalysisState.declaring
    have scopes_eq : (a.under s).scopes = a.scopes := rfl
    rw [scopes_eq]
    split <;> rfl
  refine ⟨?_, fun s _ => ?_⟩
  · unfold AnalysisState.declaring
    split <;> rfl
  · rw [declareInBlock_apply, same]

/-- A block is closed without regard to the settings. -/
theorem closed_under (a : AnalysisState) :
    a.closed.env.strictness = a.env.strictness ∧ ∀ s, (a.under s).closed = a.closed.under s := by
  have names (frame : Table Ty) := Unsettled.foldl Unsettled.noteBlockName frame.names a.env
  have parts (s : Strictness) : (a.under s).scopes = a.scopes ∧ (a.under s).env = a.env.under s := ⟨rfl, rfl⟩
  unfold AnalysisState.closed
  constructor
  · split
    · exact (names _).1
    · rfl
  · intro s
    rw [(parts s).1, (parts s).2]
    split
    · simp only [(names _).2 s]
      rfl
    · rfl

/-- A block around relaxed steps. -/
theorem inBlock {x : Analysis α} (hx : Relaxes x) : Relaxes (Analysis.inBlock x) := by
  intro a b r h
  rw [inBlock_apply] at h
  obtain ⟨given, rfl⟩ := Prod.mk.inj h
  obtain ⟨kept, same⟩ := hx a.opened _ r (Prod.ext given rfl)
  obtain ⟨closed_kept, closed_same⟩ := closed_under (x a.opened).2
  refine ⟨closed_kept.trans kept, fun s hs => ?_⟩
  have inner : x (a.under s).opened = _ := same s hs
  rw [inBlock_apply, inner, closed_same]

end Relaxes

end Analysis

end HostExpr
