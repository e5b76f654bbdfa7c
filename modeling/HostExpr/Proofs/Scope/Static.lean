import HostExpr.Names.Scope
import HostExpr.Typing.Tree

/-!
# Scopes and frames of a program

At every place of a program there are the scopes that analysis has open, and the frames that a run has open. Both are
known from the text: what is declared, and by which declaration. They are not the same stack. A loop over items has
two scopes and one frame, and the names that a row of declarators declares at the start of a `for` statement are in
scope until the statement ends, but their frame is closed when the row has run. `Covers` says how the two agree.
-/

namespace HostExpr

namespace Scopes

variable {α β : Type}

/-! ## Declarations in scopes -/

/-- Declare a name in the innermost block, if there is one. -/
def declaring (s : Scopes α) (name : String) (a : α) : Scopes α :=
  match s.frames with
  | [] => s
  | frame :: rest => ⟨frame.put name a :: rest⟩

/-- Something is declared in some block. -/
def Has (s : Scopes α) (a : α) : Prop := ∃ frame ∈ s.frames, ∃ name, (name, a) ∈ frame

/-- A declaration is possible if a block is open. -/
theorem declare_eq (s : Scopes α) (name : String) (a : α) :
    s.declare name a = if s.isEmpty then .error .noScope else .ok (s.declaring name a) := by
  match s with
  | ⟨[]⟩ => rfl
  | ⟨frame :: rest⟩ => rfl

/-- Without a block nothing is declared. -/
theorem declaring_of_isEmpty {s : Scopes α} (hs : s.isEmpty) (name : String) (a : α) : s.declaring name a = s := by
  obtain ⟨_ | ⟨frame, rest⟩⟩ := s
  · rfl
  · cases hs

/-- What names mean after a declaration. -/
theorem lookup_declaring {s : Scopes α} (hs : s.isEmpty = false) (name : String) (a : α) (other : String) :
    (s.declaring name a).lookup other = if other = name then some a else s.lookup other := by
  apply lookup_declare
  rw [declare_eq, hs]
  rfl

@[simp]
theorem isEmpty_push (s : Scopes α) : s.push.isEmpty = false := rfl

@[simp]
theorem popped_push (s : Scopes α) : s.push.popped = s := rfl

/-- A declaration opens and closes no block. -/
@[simp]
theorem isEmpty_declaring (s : Scopes α) (name : String) (a : α) :
    (s.declaring name a).isEmpty = s.isEmpty := by
  match s with
  | ⟨[]⟩ => rfl
  | ⟨frame :: rest⟩ => rfl

/-- A declaration leaves the outer blocks. -/
@[simp]
theorem popped_declaring (s : Scopes α) (name : String) (a : α) : (s.declaring name a).popped = s.popped := by
  match s with
  | ⟨[]⟩ => rfl
  | ⟨frame :: rest⟩ => rfl

/-- A new block declares nothing. -/
@[simp]
theorem has_push {s : Scopes α} {a : α} : s.push.Has a ↔ s.Has a := by
  simp [Has, push]

/-- What is left when a block is closed was there before. -/
theorem Has.of_popped {s : Scopes α} {a : α} (h : s.popped.Has a) : s.Has a := by
  obtain ⟨frame, hf, hn⟩ := h
  exact ⟨frame, List.mem_of_mem_tail hf, hn⟩

/-- What is there after a declaration was declared, or was there before. -/
theorem Has.of_declaring {s : Scopes α} {name : String} {a b : α} (h : (s.declaring name a).Has b) :
    b = a ∨ s.Has b := by
  match s, h with
  | ⟨[]⟩, h => exact Or.inr h
  | ⟨frame :: rest⟩, ⟨f, hf, n, hn⟩ =>
    rcases List.mem_cons.1 hf with rfl | hf
    · rcases Table.mem_put hn with rfl | hm
      · exact Or.inl rfl
      · exact Or.inr ⟨frame, List.mem_cons_self, n, hm⟩
    · exact Or.inr ⟨f, List.mem_cons_of_mem _ hf, n, hn⟩

/-- What a name means is declared in some block. -/
theorem has_of_lookup {s : Scopes α} {name : String} {a : α} (h : s.lookup name = some a) : s.Has a := by
  obtain ⟨frame, hf, hg⟩ := List.exists_of_findSome?_eq_some h
  exact ⟨frame, hf, name, Table.mem_of_get? hg⟩

end Scopes

/-! ## What a place of a program sees -/

/-- Where a statement stands: its place in its row, then that of the row in the statement around it, and so on
outwards. -/
abbrev Path := List Nat

/-- A declaration that is in scope, and whether its frame is kept open as long as that. -/
structure Declared where
  path : Path
  kept : Bool
deriving DecidableEq, Repr

namespace Scopes

open Typed

variable {α : Type} (mark : Path → α)

/-- Scopes after a statement at a path, where what is declared is marked. -/
def after (s : Scopes α) (p : Path) : Stmt → Scopes α
  | .declare _ name _ _ true => s.declaring name (mark p)
  | _ => s

/-- Scopes after statements in a row at a path, the first of them in the given place. -/
def afterAll (s : Scopes α) (p : Path) : Nat → List Stmt → Scopes α
  | _, [] => s
  | i, st :: ss => (s.after mark (i :: p) st).afterAll p (i + 1) ss

/-- The scopes after the start of a `for` statement. A row of declarators is a block of its own in a run. -/
def afterInit (s : Scopes Declared) (p : Path) : Option Stmt → Scopes Declared
  | none => s
  | some (.block _ row) => s.afterAll (⟨·, false⟩) p 0 row
  | some st => s.after (⟨·, true⟩) p st

/-- The frames after the start of a `for` statement. -/
def framesAfterInit (s : Scopes Path) (p : Path) : Option Stmt → Scopes Path
  | none => s
  | some st => s.after id p st

/-- A statement leaves the outer blocks. -/
@[simp]
theorem popped_after (s : Scopes α) (p : Path) (st : Stmt) : (s.after mark p st).popped = s.popped := by
  unfold after
  split
  · simp
  · rfl

/-- The start of a `for` statement leaves the outer blocks. -/
@[simp]
theorem popped_framesAfterInit (s : Scopes Path) (p : Path) (init : Option Stmt) :
    (s.framesAfterInit p init).popped = s.popped := by
  cases init with
  | none => rfl
  | some st => exact popped_after id s p st

/-- Statements in a row leave the outer blocks. -/
@[simp]
theorem popped_afterAll (s : Scopes α) (p : Path) (i : Nat) (ss : List Stmt) :
    (s.afterAll mark p i ss).popped = s.popped := by
  induction ss generalizing s i with
  | nil => rfl
  | cons st ss ih => simp [afterAll, ih]

/-- The start of a `for` statement leaves the outer blocks. -/
@[simp]
theorem popped_afterInit (s : Scopes Declared) (p : Path) (init : Option Stmt) :
    (s.afterInit p init).popped = s.popped := by
  unfold afterInit
  split
  · rfl
  · exact popped_afterAll _ _ _ _ _
  · exact popped_after _ _ _ _

end Scopes

/-! ## Agreement of scopes and frames -/

variable {Γ : Scopes Declared} {Φ : Scopes Path} {p q : Path}

/-- Nothing that is in scope or in a frame is declared at a path or inside the statement there. -/
structure Outside (q : Path) (Γ : Scopes Declared) (Φ : Scopes Path) : Prop where
  declared : ∀ d, Γ.Has d → ¬ q <:+ d.path
  framed : ∀ d, Φ.Has d → ¬ q <:+ d

/-- A name that is in scope is in a frame by the same declaration, or its frame is closed. -/
structure Covers (Γ : Scopes Declared) (Φ : Scopes Path) : Prop where
  isEmpty_eq : Γ.isEmpty = Φ.isEmpty
  kept : ∀ name d, Γ.lookup name = some d → d.kept → Φ.lookup name = some d.path
  gone : ∀ d, Γ.Has d → d.kept = false → ¬ Φ.Has d.path

namespace Outside

/-- What is outside a statement is outside all statements in it. -/
theorem inner (h : Outside q Γ Φ) (hq : q <:+ p) : Outside p Γ Φ where
  declared d hd hp := h.declared d hd (hq.trans hp)
  framed d hd hp := h.framed d hd (hq.trans hp)

theorem push (h : Outside q Γ Φ) : Outside q Γ.push Φ.push where
  declared d hd := h.declared d (Scopes.has_push.1 hd)
  framed d hd := h.framed d (Scopes.has_push.1 hd)

theorem pushScope (h : Outside q Γ Φ) : Outside q Γ.push Φ where
  declared d hd := h.declared d (Scopes.has_push.1 hd)
  framed := h.framed

theorem pushFrame (h : Outside q Γ Φ) : Outside q Γ Φ.push where
  declared := h.declared
  framed d hd := h.framed d (Scopes.has_push.1 hd)

/-- A declaration elsewhere stays outside. -/
theorem declaring (h : Outside q Γ Φ) (hq : ¬ q <:+ p) (name : String) (kept : Bool) :
    Outside q (Γ.declaring name ⟨p, kept⟩) (Φ.declaring name p) where
  declared d hd := by
    rcases hd.of_declaring with rfl | hd
    · exact hq
    · exact h.declared d hd
  framed d hd := by
    rcases hd.of_declaring with rfl | hd
    · exact hq
    · exact h.framed d hd

/-- A declaration elsewhere stays outside also if its frame is closed. -/
theorem declaringGone (h : Outside q Γ Φ) (hq : ¬ q <:+ p) (name : String) (kept : Bool) :
    Outside q (Γ.declaring name ⟨p, kept⟩) Φ where
  declared d hd := by
    rcases hd.of_declaring with rfl | hd
    · exact hq
    · exact h.declared d hd
  framed := h.framed

/-- A statement elsewhere stays outside. -/
theorem after (h : Outside q Γ Φ) (hq : ¬ q <:+ p) (st : Typed.Stmt) :
    Outside q (Γ.after (⟨·, true⟩) p st) (Φ.after id p st) := by
  unfold Scopes.after
  split
  · exact h.declaring hq _ true
  · exact h

/-- Two statements of one row are outside each other. -/
theorem not_suffix_of_ne {i j : Nat} (h : j ≠ i) : ¬ (j :: p) <:+ (i :: p) := by
  intro hs
  have : j :: p = i :: p := hs.eq_of_length rfl
  simp only [List.cons.injEq, and_true] at this
  exact h this

/-- A statement is not inside one that is deeper. -/
theorem not_suffix_of_length (h : p.length < q.length) : ¬ q <:+ p := by
  intro hs
  have := hs.length_le
  omega

end Outside

namespace Covers

/-- Without scopes and frames there is nothing to agree on. -/
theorem empty : Covers .empty .empty where
  isEmpty_eq := rfl
  kept name d h := by cases h
  gone d := by
    rintro ⟨frame, hf, -⟩
    cases hf

/-- A block has a scope and a frame. -/
theorem push (h : Covers Γ Φ) : Covers Γ.push Φ.push where
  isEmpty_eq := rfl
  kept := h.kept
  gone d hd hk := by
    rw [Scopes.has_push] at hd ⊢
    exact h.gone d hd hk

/-- The body of a loop over items has a scope of its own, but no frame. -/
theorem pushScope (h : Covers Γ Φ) (hf : Φ.isEmpty = false) : Covers Γ.push Φ where
  isEmpty_eq := hf.symm
  kept := h.kept
  gone d hd hk := by
    rw [Scopes.has_push] at hd
    exact h.gone d hd hk

/-- A row of declarators has a frame of its own, but no scope. -/
theorem pushFrame (h : Covers Γ Φ) (hs : Γ.isEmpty = false) : Covers Γ Φ.push where
  isEmpty_eq := hs
  kept := h.kept
  gone d hd hk := by
    rw [Scopes.has_push]
    exact h.gone d hd hk

/-- A declaration is in scope and in a frame. -/
theorem declaring (h : Covers Γ Φ) (ho : Outside p Γ Φ) (name : String) :
    Covers (Γ.declaring name ⟨p, true⟩) (Φ.declaring name p) where
  isEmpty_eq := by simp [h.isEmpty_eq]
  kept n d hd hk := by
    by_cases he : Γ.isEmpty
    · -- without a block there is no declaration
      match Γ, he with
      | ⟨[]⟩, _ => cases hd
    · have he : Γ.isEmpty = false := by simpa using he
      rw [Scopes.lookup_declaring he] at hd
      rw [Scopes.lookup_declaring (h.isEmpty_eq ▸ he)]
      split at hd
      · rename_i hn
        cases hd
        rw [if_pos hn]
      · rename_i hn
        rw [if_neg hn]
        exact h.kept n d hd hk
  gone d hd hk hf := by
    rcases hd.of_declaring with rfl | hd
    · cases hk
    · rcases hf.of_declaring with hp | hf
      · exact ho.declared d hd (hp ▸ List.suffix_refl _)
      · exact h.gone d hd hk hf

/-- A declaration whose frame is closed is in scope only. -/
theorem declaringGone (h : Covers Γ Φ) (hp : ¬ Φ.Has p) (name : String) :
    Covers (Γ.declaring name ⟨p, false⟩) Φ where
  isEmpty_eq := by simp [h.isEmpty_eq]
  kept n d hd hk := by
    by_cases he : Γ.isEmpty
    · match Γ, he with
      | ⟨[]⟩, _ => cases hd
    · have he : Γ.isEmpty = false := by simpa using he
      rw [Scopes.lookup_declaring he] at hd
      split at hd
      · cases hd
        cases hk
      · exact h.kept n d hd hk
  gone d hd hk := by
    rcases hd.of_declaring with rfl | hd
    · exact hp
    · exact h.gone d hd hk

/-- Scopes and frames agree after a statement. -/
theorem after (h : Covers Γ Φ) (ho : Outside p Γ Φ) (st : Typed.Stmt) :
    Covers (Γ.after (⟨·, true⟩) p st) (Φ.after id p st) := by
  unfold Scopes.after
  split
  · exact h.declaring ho _
  · exact h

/-- Scopes and frames agree after a row whose frame is closed. -/
theorem afterRow (h : Covers Γ Φ) (ho : ∀ j, ¬ Φ.Has (j :: p)) (i : Nat) (row : List Typed.Stmt) :
    Covers (Γ.afterAll (⟨·, false⟩) p i row) Φ := by
  induction row generalizing Γ i with
  | nil => exact h
  | cons st row ih =>
    apply ih
    unfold Scopes.after
    split
    · exact h.declaringGone (ho i) _
    · exact h

/-- Scopes and frames agree after the start of a `for` statement. -/
theorem afterInit (h : Covers Γ Φ) (ho : Outside p Γ Φ) (init : Option Typed.Stmt) :
    Covers (Γ.afterInit p init) (Φ.framesAfterInit p init) := by
  unfold Scopes.afterInit
  split
  · exact h
  · refine h.afterRow ?_ 0 _
    intro j hj
    exact ho.framed _ hj (List.suffix_cons j p)
  · exact h.after ho _

end Covers

/-- What is declared at the start of a `for` statement is outside the rest of it. -/
theorem Outside.afterInit (h : Outside q Γ Φ) (hp : ¬ q <:+ p) (hi : ∀ j, ¬ q <:+ (j :: p))
    (init : Option Typed.Stmt) : Outside q (Γ.afterInit p init) (Φ.framesAfterInit p init) := by
  unfold Scopes.afterInit
  split
  · exact h
  · rename_i info row
    show Outside q (Γ.afterAll (⟨·, false⟩) p 0 row) Φ
    generalize 0 = i
    induction row generalizing Γ i with
    | nil => exact h
    | cons st row ih =>
      apply ih
      unfold Scopes.after
      split
      · exact h.declaringGone (hi i) _ false
      · exact h
  · exact h.after hp _

end HostExpr
