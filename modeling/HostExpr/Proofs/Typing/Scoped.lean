import HostExpr.Proofs.Scope.Static
import HostExpr.Proofs.Typing.Rule

/-!
# Well-typed statements

A statement is well typed in the open scopes, with what is known behind the top-level statement that it stands in: all
parts of its expressions obey their rules there, and what it declares is in the scopes of what follows. At the top level
a declaration is one for the whole program, and only it can give a name another type; `ProgramTyped` goes from one
top-level statement to the next.
-/

namespace HostExpr

open Typed

/-- The type of the items that a loop runs over. -/
def Ty.iterated (t : Ty) : Ty :=
  match t.cls with
  | .builtin .list | .builtin .array => t.itemType
  | .builtin .map => t.keyType
  | .builtin .string => .string
  | _ => .object

namespace Scopes

/-- The scopes behind a statement. -/
def following (Θ : Scopes Ty) : Stmt → Scopes Ty
  | .declare i name _ _ _ => Θ.declaring name i.type
  | _ => Θ

/-- The scopes behind statements in a row. -/
def followingAll (Θ : Scopes Ty) : List Stmt → Scopes Ty
  | [] => Θ
  | s :: ss => (Θ.following s).followingAll ss

/-- The scopes behind the start of a `for` statement: several declarations make a block there, which is none for
analysis. -/
def followingInit (Θ : Scopes Ty) : Option Stmt → Scopes Ty
  | none => Θ
  | some (.block _ row) => Θ.followingAll row
  | some s => Θ.following s

variable {Θ : Scopes Ty}

theorem followingAll_append (ss ss' : List Stmt) :
    Θ.followingAll (ss ++ ss') = (Θ.followingAll ss).followingAll ss' := by
  induction ss generalizing Θ with
  | nil => rfl
  | cons s ss ih => exact ih

@[simp]
theorem popped_following (s : Stmt) : (Θ.following s).popped = Θ.popped := by
  cases s with
  | declare i name declared init inBlock => exact Θ.popped_declaring name i.type
  | _ => rfl

@[simp]
theorem popped_followingAll (ss : List Stmt) : (Θ.followingAll ss).popped = Θ.popped := by
  induction ss generalizing Θ with
  | nil => rfl
  | cons s ss ih => exact ih.trans (popped_following s)

@[simp]
theorem popped_followingInit (init : Option Stmt) : (Θ.followingInit init).popped = Θ.popped := by
  unfold followingInit
  split
  · rfl
  · exact popped_followingAll _
  · exact popped_following _

/-- At the top level nothing is declared in a block. -/
theorem following_empty (s : Stmt) : (Scopes.empty : Scopes Ty).following s = .empty := by
  cases s <;> rfl

theorem followingAll_empty (ss : List Stmt) : (Scopes.empty : Scopes Ty).followingAll ss = .empty := by
  induction ss with
  | nil => rfl
  | cons s ss ih =>
    unfold followingAll
    rw [following_empty]
    exact ih

/-- A name that a statement does not declare means nothing behind it, if it did not before. -/
theorem lookup_following_of_none {name : String} {s : Stmt} (h : Θ.lookup name = none) (out : name ∉ s.declaredNames) :
    (Θ.following s).lookup name = none := by
  cases s with
  | declare i other declared init inBlock =>
    show (Θ.declaring other i.type).lookup name = none
    cases outside : Θ.isEmpty with
    | true =>
      rw [declaring_of_isEmpty outside]
      exact h
    | false =>
      have differs : name ≠ other := fun same => out (List.mem_singleton.2 same)
      rw [lookup_declaring outside, if_neg differs]
      exact h
  | _ => exact h

theorem lookup_followingAll_of_none {name : String} {ss : List Stmt} (h : Θ.lookup name = none)
    (out : name ∉ Stmt.declaredNamesAll ss) : (Θ.followingAll ss).lookup name = none := by
  induction ss generalizing Θ with
  | nil => exact h
  | cons s ss ih =>
    have first := lookup_following_of_none h fun listed => out (List.mem_append_left _ listed)
    exact ih first fun listed => out (List.mem_append_right _ listed)

theorem lookup_followingInit_of_none {name : String} {s : Stmt} (h : Θ.lookup name = none)
    (out : name ∉ s.declaredNames) : (Θ.followingInit (some s)).lookup name = none := by
  unfold followingInit
  split
  · exact h
  · rename_i same
    cases same
    exact lookup_followingAll_of_none h out
  · rename_i same
    cases same
    exact lookup_following_of_none h out

@[simp]
theorem isEmpty_following (s : Stmt) : (Θ.following s).isEmpty = Θ.isEmpty := by
  cases s with
  | declare i name declared init inBlock => exact Θ.isEmpty_declaring name i.type
  | _ => rfl

@[simp]
theorem isEmpty_followingAll (ss : List Stmt) : (Θ.followingAll ss).isEmpty = Θ.isEmpty := by
  induction ss generalizing Θ with
  | nil => rfl
  | cons s ss ih => exact ih.trans (isEmpty_following s)

end Scopes

namespace Context

variable (ctx : Context) (config : Config) (z : AnalysisState)

/-- All parts of an expression obey their rules. -/
def WellTyped (Θ : Scopes Ty) (e : Expr) : Prop := ∀ n ∈ e.parts, ctx.Obeys config Θ z n

mutual

/-- A statement is well typed in the open scopes. What it declares is declared in a block. -/
def StmtTyped (Θ : Scopes Ty) : Stmt → Prop
  | .expr e => ctx.WellTyped config z Θ e
  | .declare i _ declared init inBlock =>
    (∀ e ∈ init, ctx.WellTyped config z Θ e) ∧ i.type = declaredType declared init ∧ inBlock = true ∧ Θ.isEmpty = false
  | .block i body => i.type = lastType body ∧ StmtsTyped Θ.push body
  | .branch i cond thenBody elseBody =>
    i.type = .object ∧ ctx.WellTyped config z Θ cond ∧ StmtsTyped Θ.push thenBody ∧
      match elseBody with
      | some body => StmtsTyped Θ.push body
      | none => True
  | .whileLoop i cond body => i.type = .object ∧ ctx.WellTyped config z Θ cond ∧ StmtsTyped Θ.push body
  | .forLoop i init cond update body =>
    let Θ' := Θ.push.followingInit init
    i.type = .object ∧ InitTyped Θ.push init ∧ (∀ e ∈ cond, ctx.WellTyped config z Θ' e) ∧
      (∀ e ∈ update, ctx.WellTyped config z Θ' e) ∧ StmtsTyped Θ'.push body
  | .forEach i name declared items body =>
    i.type = .object ∧ ctx.WellTyped config z Θ items ∧
      StmtsTyped (Θ.push.declaring name (declared.getD items.type.iterated)).push body
  | .returns i e => (∀ e' ∈ e, ctx.WellTyped config z Θ e') ∧ i.type = (e.map Expr.type).getD .null ∧ i.type ∈ z.returns
  | .nop i => i.type = .null

/-- The start of a `for` statement. -/
def InitTyped (Θ : Scopes Ty) : Option Stmt → Prop
  | none => True
  | some (.block _ row) => StmtsTyped Θ row
  | some s => StmtTyped Θ s

/-- Statements in a row. -/
def StmtsTyped (Θ : Scopes Ty) : List Stmt → Prop
  | [] => True
  | s :: ss => StmtTyped Θ s ∧ StmtsTyped (Θ.following s) ss

end

/-- Top-level statements are well typed one after the other, from an environment on and up to the end of an analysis:
each with what is known behind it. -/
inductive ProgramTyped (last : AnalysisState) : Environment → List Stmt → Prop
  | nil {env : Environment} (grows : env.Grows last.env) : ProgramTyped last env []
  | declare {env : Environment} {z : AnalysisState} {i : Info} {name : String} {declared : Option Ty}
      {init : Option Expr} {ss : List Stmt} (grows : env.Grows z.env) (returns : z.returns ⊆ last.returns)
      (typed : ∀ e ∈ init, ctx.WellTyped config z .empty e) (type : i.type = declaredType declared init)
      (rest : ProgramTyped last (z.env.declare name i.type) ss) :
      ProgramTyped last env (.declare i name declared init false :: ss)
  | other {env : Environment} {z : AnalysisState} {s : Stmt} {ss : List Stmt} (grows : env.Grows z.env)
      (returns : z.returns ⊆ last.returns) (typed : ctx.StmtTyped config z .empty s) (rest : ProgramTyped last z.env ss) :
      ProgramTyped last env (s :: ss)

variable {ctx config z} {Θ : Scopes Ty}

/-! ## More is known later -/

theorem WellTyped.mono {z' : AnalysisState} {e : Expr} (later : z.Before z') (h : ctx.WellTyped config z Θ e) :
    ctx.WellTyped config z' Θ e := fun n hn => (h n hn).mono later

/-- What starts a `for` statement is a statement, unless it is a block. -/
theorem initTyped_iff {s : Stmt} (h : ∀ i body, s ≠ .block i body) :
    ctx.InitTyped config z Θ (some s) ↔ ctx.StmtTyped config z Θ s := by
  cases s with
  | block i body => exact absurd rfl (h i body)
  | _ =>
    unfold InitTyped
    rfl

variable {z' : AnalysisState}

mutual

theorem StmtTyped.mono (later : z.Before z') (s : Stmt) {Θ : Scopes Ty} (h : ctx.StmtTyped config z Θ s) :
    ctx.StmtTyped config z' Θ s := by
  cases s with
  | expr e => exact WellTyped.mono later h
  | declare i name declared init inBlock => exact ⟨fun e he => (h.1 e he).mono later, h.2⟩
  | block i body => exact ⟨h.1, StmtsTyped.mono later body h.2⟩
  | branch i cond thenBody elseBody =>
    unfold StmtTyped at h ⊢
    obtain ⟨type, typed, first, second⟩ := h
    refine ⟨type, typed.mono later, StmtsTyped.mono later thenBody first, ?_⟩
    cases elseBody with
    | none => trivial
    | some body => exact StmtsTyped.mono later body second
  | whileLoop i cond body => exact ⟨h.1, h.2.1.mono later, StmtsTyped.mono later body h.2.2⟩
  | forLoop i init cond update body =>
    obtain ⟨type, first, conds, updates, rest⟩ := h
    exact ⟨type, InitTyped.mono later init first, fun e he => (conds e he).mono later,
      fun e he => (updates e he).mono later, StmtsTyped.mono later body rest⟩
  | forEach i name declared items body => exact ⟨h.1, h.2.1.mono later, StmtsTyped.mono later body h.2.2⟩
  | returns i e => exact ⟨fun e' he => (h.1 e' he).mono later, h.2.1, later.returns h.2.2⟩
  | nop i => exact h
termination_by sizeOf s

theorem InitTyped.mono (later : z.Before z') (init : Option Stmt) {Θ : Scopes Ty} (h : ctx.InitTyped config z Θ init) :
    ctx.InitTyped config z' Θ init := by
  cases init with
  | none => trivial
  | some s =>
    by_cases row : ∃ i body, s = .block i body
    · obtain ⟨i, body, rfl⟩ := row
      unfold InitTyped at h ⊢
      exact StmtsTyped.mono later body h
    · have plain : ∀ i body, s ≠ .block i body := fun i body same => row ⟨i, body, same⟩
      rw [initTyped_iff plain] at h ⊢
      exact StmtTyped.mono later s h
termination_by sizeOf init

theorem StmtsTyped.mono (later : z.Before z') (ss : List Stmt) {Θ : Scopes Ty} (h : ctx.StmtsTyped config z Θ ss) :
    ctx.StmtsTyped config z' Θ ss := by
  cases ss with
  | nil => trivial
  | cons s ss => exact ⟨StmtTyped.mono later s h.1, StmtsTyped.mono later ss h.2⟩
termination_by sizeOf ss

end

/-- Two rows one after the other. -/
theorem StmtsTyped.append {ss ss' : List Stmt} (h : ctx.StmtsTyped config z Θ ss)
    (h' : ctx.StmtsTyped config z (Θ.followingAll ss) ss') : ctx.StmtsTyped config z Θ (ss ++ ss') := by
  induction ss generalizing Θ with
  | nil => exact h'
  | cons s ss ih => exact ⟨h.1, ih h.2 h'⟩

/-! ## The parts of well-typed statements -/

/-- A part obeys its rule where it stands: in scopes where a name that is none of the given ones means nothing, unless
it does in the outer ones. -/
def ObeysWithin (ctx : Context) (config : Config) (z : AnalysisState) (Θ : Scopes Ty) (names : List String) (e : Expr) :
    Prop :=
  ∃ Θ', ctx.Obeys config Θ' z e ∧ ∀ name, Θ.lookup name = none → name ∉ names → Θ'.lookup name = none

namespace ObeysWithin

variable {Θ' : Scopes Ty} {names names' : List String} {e : Expr}

theorem of_obeys (h : ctx.Obeys config Θ z e) (names : List String) : ctx.ObeysWithin config z Θ names e :=
  ⟨Θ, h, fun _ hn _ => hn⟩

/-- In scopes within others. -/
theorem outer (h : ctx.ObeysWithin config z Θ' names' e)
    (free : ∀ name, Θ.lookup name = none → name ∉ names → Θ'.lookup name = none) (more : names' ⊆ names) :
    ctx.ObeysWithin config z Θ names e := by
  obtain ⟨Ψ, obeys, within⟩ := h
  exact ⟨Ψ, obeys, fun name hn out => within name (free name hn out) fun listed => out (more listed)⟩

/-- The statement declares more names. -/
theorem of_subset (h : ctx.ObeysWithin config z Θ names' e) (more : names' ⊆ names) :
    ctx.ObeysWithin config z Θ names e := h.outer (fun _ hn _ => hn) more

/-- In a new block within the scopes. -/
theorem of_push (h : ctx.ObeysWithin config z Θ.push names' e) (more : names' ⊆ names) :
    ctx.ObeysWithin config z Θ names e := h.outer (fun _ hn _ => hn) more

end ObeysWithin

variable {names : List String}

theorem within_of_optional (x : Option Expr) (hx : ∀ e ∈ x, ctx.WellTyped config z Θ e) (names : List String) :
    ∀ e ∈ (x.map Expr.parts).getD [], ctx.ObeysWithin config z Θ names e := by
  intro e he
  cases x with
  | none => cases he
  | some x => exact .of_obeys (hx x rfl e he) names

theorem within_of_append {xs ys : List Expr} (hx : ∀ e ∈ xs, ctx.ObeysWithin config z Θ names e)
    (hy : ∀ e ∈ ys, ctx.ObeysWithin config z Θ names e) : ∀ e ∈ xs ++ ys, ctx.ObeysWithin config z Θ names e :=
  fun e he => (List.mem_append.1 he).elim (hx e) (hy e)

mutual

/-- All parts of a well-typed statement obey their rules where they stand. -/
theorem StmtTyped.within (s : Stmt) {Θ : Scopes Ty} (h : ctx.StmtTyped config z Θ s) :
    ∀ e ∈ s.parts, ctx.ObeysWithin config z Θ s.declaredNames e := by
  cases s with
  | expr x => exact fun e he => .of_obeys (h e he) _
  | declare i name declared init inBlock => exact within_of_optional init h.1 _
  | block i body => exact fun e he => (StmtsTyped.within body h.2 e he).of_push (List.Subset.refl _)
  | branch i cond thenBody elseBody =>
    unfold StmtTyped at h
    obtain ⟨-, typed, first, second⟩ := h
    unfold Stmt.parts Stmt.declaredNames
    have head {more : List String} := within_of_append (fun e he => .of_obeys (typed e he) _)
      fun e he => (StmtsTyped.within thenBody first e he).of_push (List.subset_append_left _ more)
    cases elseBody with
    | none => exact within_of_append head fun e he => by cases he
    | some body =>
      exact within_of_append head fun e he => (StmtsTyped.within body second e he).of_push (List.subset_append_right _ _)
  | whileLoop i cond body =>
    refine within_of_append (fun e he => .of_obeys (h.2.1 e he) _) fun e he => ?_
    exact (StmtsTyped.within body h.2.2 e he).of_push (List.Subset.refl _)
  | forLoop i init cond update body =>
    obtain ⟨-, first, conds, updates, rest⟩ := h
    have updated : ∀ e ∈ Expr.partsAll update, ctx.Obeys config (Θ.push.followingInit init) z e := by
      intro e he
      obtain ⟨x, hx, he⟩ := Expr.mem_partsAll.1 he
      exact updates x hx e he
    -- init, condition, updates and body follow each other in the parts, each with the names declared before it
    have behind {names : List String} (free : ∀ name, Θ.lookup name = none → name ∉ names →
        (Θ.push.followingInit init).lookup name = none) (more : Stmt.declaredNamesAll body ⊆ names) {xs : List Expr}
        (hx : ∀ e ∈ xs, ctx.ObeysWithin config z Θ names e) :=
      within_of_append (within_of_append (within_of_append hx
        fun e he => (within_of_optional cond conds names e he).outer free (List.Subset.refl _))
        fun e he => (ObeysWithin.of_obeys (updated e he) names).outer free (List.Subset.refl _))
        fun e he => ((StmtsTyped.within body rest e he).of_push (List.Subset.refl _)).outer free more
    unfold Stmt.parts Stmt.declaredNames
    cases init with
    | none => exact behind (fun _ hn _ => hn) (List.subset_append_right _ _) fun e he => by cases he
    | some s =>
      refine behind (fun name hn out => ?_) (List.subset_append_right _ _) fun e he => ?_
      · exact Scopes.lookup_followingInit_of_none hn fun listed => out (List.mem_append_left _ listed)
      · exact (InitTyped.within s first e he).of_push (List.subset_append_left _ _)
  | forEach i name declared items body =>
    refine within_of_append (fun e he => .of_obeys (h.2.1 e he) _) fun e he => ?_
    refine (StmtsTyped.within body h.2.2 e he).outer (fun other hn out => ?_) (List.subset_cons_self _ _)
    have differs : other ≠ name := fun same => out (same ▸ List.mem_cons_self)
    rw [Scopes.lookup_push, Scopes.lookup_declaring rfl, if_neg differs]
    exact hn
  | returns i x => exact within_of_optional x h.1 _
  | nop i => exact fun e he => by cases he
termination_by sizeOf s

theorem InitTyped.within (s : Stmt) {Θ : Scopes Ty} (h : ctx.InitTyped config z Θ (some s)) :
    ∀ e ∈ s.parts, ctx.ObeysWithin config z Θ s.declaredNames e := by
  by_cases row : ∃ i body, s = .block i body
  · obtain ⟨i, body, rfl⟩ := row
    unfold InitTyped at h
    exact StmtsTyped.within body h
  · exact StmtTyped.within s ((initTyped_iff fun i body same => row ⟨i, body, same⟩).1 h)
termination_by sizeOf s + 1

theorem StmtsTyped.within (ss : List Stmt) {Θ : Scopes Ty} (h : ctx.StmtsTyped config z Θ ss) :
    ∀ e ∈ Stmt.partsAll ss, ctx.ObeysWithin config z Θ (Stmt.declaredNamesAll ss) e := by
  cases ss with
  | nil => exact fun e he => by cases he
  | cons s ss =>
    intro e he
    rcases List.mem_append.1 he with he | he
    · exact (StmtTyped.within s h.1 e he).of_subset (List.subset_append_left _ _)
    · refine (StmtsTyped.within ss h.2 e he).outer (fun name hn out => ?_) (List.subset_append_right _ _)
      exact Scopes.lookup_following_of_none hn fun listed => out (List.mem_append_left _ listed)
termination_by sizeOf ss

end

/-- All parts of a well-typed statement obey their rules. -/
theorem StmtTyped.rule {s : Stmt} (h : ctx.StmtTyped config z Θ s) : ∀ e ∈ s.parts, ctx.Rule config e := by
  intro e he
  obtain ⟨Θ', obeys, -⟩ := h.within s e he
  exact obeys.rule

theorem ProgramTyped.rule {last : AnalysisState} {env : Environment} {ss : List Stmt}
    (h : ctx.ProgramTyped config last env ss) : ∀ e ∈ Stmt.partsAll ss, ctx.Rule config e := by
  induction h with
  | nil grows => exact fun e he => by cases he
  | @declare _ _ _ _ _ init _ grows returns typed type rest ih =>
    refine fun e he => (List.mem_append.1 he).elim (fun he => ?_) (ih e)
    obtain ⟨Θ', obeys, -⟩ := within_of_optional init typed [] e he
    exact obeys.rule
  | other grows returns typed rest ih => exact fun e he => (List.mem_append.1 he).elim (typed.rule e) (ih e)

/-- More may be known before. -/
theorem ProgramTyped.of_grows {last : AnalysisState} {env env' : Environment} {ss : List Stmt}
    (h : ctx.ProgramTyped config last env ss) (grows : env'.Grows env) : ctx.ProgramTyped config last env' ss := by
  cases h with
  | nil g => exact .nil (grows.trans g)
  | declare g returns typed type rest => exact .declare (grows.trans g) returns typed type rest
  | other g returns typed rest => exact .other (grows.trans g) returns typed rest

/-- Statements of which all is known at the same time, and then others. -/
theorem ProgramTyped.of_stmtsTyped {last : AnalysisState} {env : Environment} {ss rest : List Stmt}
    (h : ctx.StmtsTyped config z .empty ss) (grows : env.Grows z.env) (returns : z.returns ⊆ last.returns)
    (typed : ctx.ProgramTyped config last z.env rest) : ctx.ProgramTyped config last env (ss ++ rest) := by
  induction ss generalizing env with
  | nil => exact typed.of_grows grows
  | cons s ss ih =>
    have next := h.2
    rw [Scopes.following_empty] at next
    exact .other grows returns h.1 (ih next (.refl z.env))

end Context

end HostExpr
