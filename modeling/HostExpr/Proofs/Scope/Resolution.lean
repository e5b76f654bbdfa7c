import HostExpr.Proofs.Scope.Analysis
import HostExpr.Proofs.Scope.Static
import HostExpr.Typing.Program

/-!
# The scopes that names are resolved in

`Stmt.Resolved` walks over a typed statement with the scopes that the text lets expect, and says that each expression
in it was analyzed in just these. It holds of all that analysis makes of a source whose `for` statements start as the
grammar lets them start: with an expression or with a declaration.
-/

namespace HostExpr

namespace Scopes

variable {α β γ : Type}

/-- The scopes have the same names, block by block. -/
def SameNames (s : Scopes α) (s' : Scopes β) : Prop := s.frames.map Table.names = s'.frames.map Table.names

namespace SameNames

variable {s : Scopes α} {s' : Scopes β}

theorem push (h : s.SameNames s') : s.push.SameNames s'.push := congrArg (List.cons _) h

theorem popped (h : s.SameNames s') : s.popped.SameNames s'.popped := by
  have := congrArg List.tail h
  rwa [← List.map_tail, ← List.map_tail] at this

theorem trans {s'' : Scopes γ} (h : s.SameNames s') (h' : s'.SameNames s'') : s.SameNames s'' :=
  Eq.trans h h'

theorem isEmpty_eq (h : s.SameNames s') : s.isEmpty = s'.isEmpty := by
  have := congrArg List.isEmpty h
  rwa [List.isEmpty_map, List.isEmpty_map] at this

/-- A name declared in both is declared in the same block. -/
theorem declaring (h : s.SameNames s') (name : String) (a : α) (b : β) :
    (s.declaring name a).SameNames (s'.declaring name b) := by
  match s, s', h with
  | ⟨[]⟩, ⟨[]⟩, h => exact h
  | ⟨frame :: rest⟩, ⟨frame' :: rest'⟩, h =>
    obtain ⟨first, rest_eq⟩ := List.cons.inj h
    show List.map Table.names _ = List.map Table.names _
    simp only [Scopes.declaring, List.map_cons, List.cons.injEq, Table.names_put]
    exact ⟨by rw [first], rest_eq⟩

end SameNames

/-- A name has a meaning in both or in neither. -/
theorem SameNames.isSome_lookup {s : Scopes α} {s' : Scopes β} (h : s.SameNames s') (name : String) :
    (s.lookup name).isSome = (s'.lookup name).isSome := by
  obtain ⟨frames⟩ := s
  obtain ⟨frames'⟩ := s'
  -- whether a frame has a name is seen from its names alone
  have named {δ : Type} (t : Table δ) : (t.get? name).isSome = decide (name ∈ t.names) := by
    induction t with
    | nil => rfl
    | cons entry rest ih =>
      obtain ⟨n, d⟩ := entry
      rw [Table.get?_cons, Table.names_cons]
      by_cases hn : name = n
      · simp [hn]
      · simp [hn, ih]
  induction frames generalizing frames' with
  | nil =>
    cases frames' with
    | nil => rfl
    | cons frame' rest' => cases h
  | cons frame rest ih =>
    cases frames' with
    | nil => cases h
    | cons frame' rest' =>
      obtain ⟨first, rest_eq⟩ := List.cons.inj h
      have head : (frame.get? name).isSome = (frame'.get? name).isSome := by
        rw [named, named, first]
      have tail := ih rest' rest_eq
      simp only [lookup, List.findSome?_cons] at tail ⊢
      cases hf : frame.get? name <;> cases hf' : frame'.get? name <;> simp_all

variable (mark : Path → α) (mark' : Path → β)

theorem SameNames.after {s : Scopes α} {s' : Scopes β} (h : s.SameNames s') (p : Path) (st : Typed.Stmt) :
    (s.after mark p st).SameNames (s'.after mark' p st) := by
  unfold Scopes.after
  split
  · exact h.declaring _ _ _
  · exact h

theorem SameNames.afterAll {s : Scopes α} {s' : Scopes β} (h : s.SameNames s') (p : Path) (i : Nat)
    (ss : List Typed.Stmt) : (s.afterAll mark p i ss).SameNames (s'.afterAll mark' p i ss) := by
  induction ss generalizing s s' i with
  | nil => exact h
  | cons st ss ih => exact ih (h.after mark mark' (i :: p) st) (i + 1)

/-- Two rows one after the other. -/
theorem afterAll_append (s : Scopes α) (p : Path) (i : Nat) (ss ss' : List Typed.Stmt) :
    s.afterAll mark p i (ss ++ ss') = (s.afterAll mark p i ss).afterAll mark p (i + ss.length) ss' := by
  induction ss generalizing s i with
  | nil => rfl
  | cons st ss ih =>
    simp only [List.cons_append, afterAll, ih, List.length_cons]
    rw [show i + 1 + ss.length = i + (ss.length + 1) by omega]

end Scopes

/-! ## Successful steps -/

namespace Analysis

variable {α β : Type} {a b : AnalysisState} {r : β}

/-- What comes of two steps comes of the second, from what comes of the first. -/
theorem bind_ok {x : Analysis α} {f : α → Analysis β} (h : (x >>= f) a = (.ok r, b)) :
    ∃ q c, x a = (.ok q, c) ∧ f q c = (.ok r, b) := of_bind_ok h

theorem map_ok {x : Analysis α} {f : α → β} (h : (f <$> x) a = (.ok r, b)) : ∃ q, x a = (.ok q, b) ∧ f q = r := by
  obtain ⟨q, c, hx, hf⟩ := bind_ok h
  cases hf
  exact ⟨q, hx, rfl⟩

theorem pure_ok {r' : β} (h : (pure r' : Analysis β) a = (.ok r, b)) : r' = r ∧ a = b := by
  cases h
  exact ⟨rfl, rfl⟩

/-- A successful step that leaves the scopes alone. -/
theorem KeepsScopes.scopes_eq {x : Analysis β} (hx : KeepsScopes x) (h : x a = (.ok r, b)) :
    b.scopes = a.scopes := by
  have := hx a
  rwa [h] at this

/-- A block closes its scope. -/
theorem inBlock_ok {x : Analysis β} (h : inBlock x a = (.ok r, b)) :
    ∃ c, x { a with scopes := a.scopes.push } = (.ok r, c) ∧ b.scopes = c.scopes.popped := by
  unfold inBlock at h
  generalize hx : x { a with scopes := a.scopes.push } = result at h
  obtain ⟨outcome, c⟩ := result
  dsimp only at h
  match hc : c.scopes with
  | ⟨[]⟩ =>
    have hp : c.scopes.pop = .error .emptyStack := by rw [hc]; rfl
    rw [hp] at h
    obtain ⟨rfl, rfl⟩ := Prod.mk.inj h
    exact ⟨_, rfl, by rw [hc]; rfl⟩
  | ⟨frame :: rest⟩ =>
    have hp : c.scopes.pop = .ok (frame, ⟨rest⟩) := by rw [hc]; rfl
    rw [hp] at h
    obtain ⟨rfl, rfl⟩ := Prod.mk.inj h
    exact ⟨c, rfl, by rw [hc]; rfl⟩

theorem get_bind {α : Type} (f : AnalysisState → Analysis α) (a : AnalysisState) : (get >>= f) a = f a a := rfl

theorem modify_eq (f : AnalysisState → AnalysisState) (a : AnalysisState) :
    (modify f : Analysis Unit) a = (.ok (), f a) := rfl

/-- A declaration in the innermost block. -/
theorem declareInBlock_scopes (name : String) (type : Ty) (a : AnalysisState) :
    (declareInBlock name type a).2.scopes = a.scopes.declaring name type := by
  unfold declareInBlock
  rw [modify_eq, Scopes.declare_eq]
  by_cases hs : a.scopes.isEmpty
  · rw [if_pos hs, Scopes.declaring_of_isEmpty hs]
  · rw [if_neg hs]

end Analysis

/-! ## Resolved statements -/

namespace Context

open Typed Analysis

/-- A name with a declaration in an open block is resolved to it, whatever else it could stand for. -/
theorem ident_of_declared (ctx : Context) {Γ : Scopes Declared} {a : AnalysisState} (hn : a.scopes.SameNames Γ)
    {name : String} {d : Declared} (hd : Γ.lookup name = some d) (span : Span) :
    ∃ type, a.scopes.lookup name = some type
      ∧ ctx.ident name span a = (.ok (.declared ⟨type, span⟩ name), a) := by
  have known := hn.isSome_lookup name
  rw [hd, Option.isSome_some] at known
  obtain ⟨type, ht⟩ := Option.isSome_iff_exists.1 known
  refine ⟨type, ht, ?_⟩
  unfold ident
  rw [get_bind, ht]
  rfl

/-- An expression was analyzed in scopes with the given names. -/
def Resolves (ctx : Context) (Γ : Scopes Declared) (e : Expr) : Prop :=
  ∃ x hint a a', ctx.expr x hint a = (.ok e, a') ∧ a.scopes.SameNames Γ

mutual

/-- The expressions of the statement at a path were analyzed in the scopes that are open there, and a declaration is
in a block exactly if one is open. -/
def Resolved (ctx : Context) (Γ : Scopes Declared) (p : Path) : Stmt → Prop
  | .expr e => ctx.Resolves Γ e
  | .declare _ _ _ init inBlock => (∀ e ∈ init, ctx.Resolves Γ e) ∧ inBlock = !Γ.isEmpty
  | .block _ body => ResolvedAll ctx Γ.push p 0 body
  | .branch _ cond thenBody elseBody =>
    ctx.Resolves Γ cond ∧ ResolvedAll ctx Γ.push (0 :: p) 0 thenBody ∧
      match elseBody with
      | some body => ResolvedAll ctx Γ.push (1 :: p) 0 body
      | none => True
  | .whileLoop _ cond body => ctx.Resolves Γ cond ∧ ResolvedAll ctx Γ.push p 0 body
  | .forLoop _ init cond update body =>
    let Δ := Γ.push.afterInit (0 :: p) init
    ResolvedInit ctx Γ.push (0 :: p) init ∧ (∀ e ∈ cond, ctx.Resolves Δ e) ∧ (∀ e ∈ update, ctx.Resolves Δ e) ∧
      ResolvedAll ctx Δ.push (1 :: p) 0 body
  | .forEach _ name _ items body =>
    ctx.Resolves Γ items ∧ ResolvedAll ctx (Γ.push.declaring name ⟨p, true⟩).push p 0 body
  | .returns _ e => ∀ e' ∈ e, ctx.Resolves Γ e'
  | .nop _ => True

/-- The start of a `for` statement. -/
def ResolvedInit (ctx : Context) (Γ : Scopes Declared) (p : Path) : Option Stmt → Prop
  | none => True
  | some (.block _ row) => ResolvedAll ctx Γ p 0 row
  | some s => Resolved ctx Γ p s

/-- The statements of a row at a path, the first of them in the given place. -/
def ResolvedAll (ctx : Context) (Γ : Scopes Declared) (p : Path) : Nat → List Stmt → Prop
  | _, [] => True
  | i, s :: ss => Resolved ctx Γ (i :: p) s ∧ ResolvedAll ctx (Γ.after (⟨·, true⟩) (i :: p) s) p (i + 1) ss

end

variable {ctx : Context} {Γ : Scopes Declared} {p : Path}

/-- Two rows one after the other. -/
theorem ResolvedAll.append {i : Nat} {ss ss' : List Stmt} (h : ResolvedAll ctx Γ p i ss)
    (h' : ResolvedAll ctx (Γ.afterAll (⟨·, true⟩) p i ss) p (i + ss.length) ss') :
    ResolvedAll ctx Γ p i (ss ++ ss') := by
  induction ss generalizing Γ i with
  | nil => exact h'
  | cons s ss ih =>
    refine ⟨h.1, ih h.2 ?_⟩
    rw [show i + 1 + ss.length = i + (ss.length + 1) by omega]
    exact h'

end Context

end HostExpr
