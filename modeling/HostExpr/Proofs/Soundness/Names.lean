import Mathlib.Data.List.Forall2
import HostExpr.Proofs.Call.Exec
import HostExpr.Proofs.Execution.Steps
import HostExpr.Proofs.Scope.Tracks
import HostExpr.Proofs.Type.Order
import HostExpr.Proofs.Typing.Scoped

/-!
# What names hold

While a program runs, what its names hold suits the types that are recorded for them. `Running.Holds` says it of a state:
the variables of blocks are in the frames in which they are expected, and what is bound for the whole program suits the
types of the environment, or is what the caller has bound.
-/

namespace HostExpr

open Typed Classes

/-! ## Variables of blocks -/

namespace Scopes

variable {α : Type} {Θ Φ : Scopes α}

/-- Every name means the same in both, and in both or in neither a block is open. -/
structure Alike (Θ Φ : Scopes α) : Prop where
  isEmpty_eq : Θ.isEmpty = Φ.isEmpty
  lookup_eq : ∀ name, Θ.lookup name = Φ.lookup name

namespace Alike

theorem refl (Θ : Scopes α) : Θ.Alike Θ := ⟨rfl, fun _ => rfl⟩

theorem push (h : Θ.Alike Φ) : Θ.push.Alike Φ.push := ⟨rfl, h.lookup_eq⟩

/-- A block more in which nothing is declared. -/
theorem pushLeft (h : Θ.Alike Φ) (inside : Φ.isEmpty = false) : Θ.push.Alike Φ := ⟨inside.symm, h.lookup_eq⟩

theorem declaring (h : Θ.Alike Φ) (name : String) (a : α) : (Θ.declaring name a).Alike (Φ.declaring name a) := by
  cases inside : Φ.isEmpty with
  | true =>
    rw [declaring_of_isEmpty inside, declaring_of_isEmpty (h.isEmpty_eq.trans inside)]
    exact h
  | false =>
    refine ⟨by rw [isEmpty_declaring, isEmpty_declaring, h.isEmpty_eq], fun other => ?_⟩
    rw [lookup_declaring inside, lookup_declaring (h.isEmpty_eq.trans inside), h.lookup_eq]

theorem following {Θ Φ : Scopes Ty} (h : Θ.Alike Φ) (s : Stmt) : (Θ.following s).Alike (Φ.following s) := by
  cases s with
  | declare i name declared init inBlock => exact h.declaring name i.type
  | _ => exact h

end Alike

end Scopes

namespace Classes

variable (cs : Classes)

/-- The values of a frame suit the types of a frame with the same names. -/
def FrameSuits (types : Table Ty) (values : Table Value) : Prop :=
  ∀ name, Option.Rel (fun t v => cs.suits v t) (types.get? name) (values.get? name)

/-- The values of the open frames suit the types of frames with the same names. -/
def FramesSuit (Φ : Scopes Ty) (frames : Scopes Value) : Prop := List.Forall₂ cs.FrameSuits Φ.frames frames.frames

variable {cs} {types : Table Ty} {values : Table Value} {Φ : Scopes Ty} {frames frames' : Scopes Value} {name : String}
  {t : Ty} {v : Value}

/-- A name of a frame with another value. -/
theorem FrameSuits.put (h : cs.FrameSuits types values) (hv : cs.suits v t) :
    cs.FrameSuits (types.put name t) (values.put name v) := by
  intro other
  rw [Table.get?_put, Table.get?_put]
  split
  · exact .some hv
  · exact h other

/-- A name of a frame with another value of the same type. -/
theorem FrameSuits.replace (h : cs.FrameSuits types values) (ht : types.get? name = some t) (hv : cs.suits v t) :
    cs.FrameSuits types (values.put name v) := by
  intro other
  rw [Table.get?_put]
  split
  · rename_i same
    rw [same, ht]
    exact .some hv
  · exact h other

namespace FramesSuit

theorem empty (cs : Classes) : cs.FramesSuit .empty .empty := .nil

theorem push (h : cs.FramesSuit Φ frames) : cs.FramesSuit Φ.push frames.push := .cons (fun _ => .none) h

theorem popped (h : cs.FramesSuit Φ frames) : cs.FramesSuit Φ.popped frames.popped := by
  obtain ⟨types⟩ := Φ
  obtain ⟨values⟩ := frames
  cases h with
  | nil => exact .nil
  | cons _ rest => exact rest

theorem isEmpty_eq (h : cs.FramesSuit Φ frames) : frames.isEmpty = Φ.isEmpty := by
  obtain ⟨types⟩ := Φ
  obtain ⟨values⟩ := frames
  cases h <;> rfl

/-- A name that is declared in a block has a value of its type. -/
theorem lookup (h : cs.FramesSuit Φ frames) (name : String) :
    Option.Rel (fun t v => cs.suits v t) (Φ.lookup name) (frames.lookup name) := by
  unfold FramesSuit at h
  unfold Scopes.lookup
  generalize Φ.frames = types at h
  generalize frames.frames = values at h
  induction h with
  | nil => exact .none
  | @cons frame value types values first rest ih =>
    rw [List.findSome?_cons, List.findSome?_cons]
    have here := first name
    revert here
    cases frame.get? name <;> cases value.get? name <;> intro here
    · exact ih
    · cases here
    · cases here
    · exact here

theorem lookup_of_some (h : cs.FramesSuit Φ frames) (ht : Φ.lookup name = some t) :
    ∃ v, frames.lookup name = some v ∧ cs.suits v t := by
  have named := h.lookup name
  rw [ht] at named
  cases hv : frames.lookup name with
  | none =>
    rw [hv] at named
    cases named
  | some v =>
    rw [hv] at named
    cases named with
    | some suits => exact ⟨v, rfl, suits⟩

theorem lookup_of_none (h : cs.FramesSuit Φ frames) (ht : Φ.lookup name = none) : frames.lookup name = none := by
  have named := h.lookup name
  rw [ht] at named
  cases hv : frames.lookup name with
  | none => rfl
  | some v =>
    rw [hv] at named
    cases named

theorem declaring (h : cs.FramesSuit Φ frames) (name : String) (hv : cs.suits v t) :
    cs.FramesSuit (Φ.declaring name t) (frames.declaring name v) := by
  obtain ⟨types⟩ := Φ
  obtain ⟨values⟩ := frames
  cases h with
  | nil => exact .nil
  | cons first rest => exact .cons (first.put hv) rest

/-- A name that is declared in a block may get another value of its type. -/
theorem assign (h : cs.FramesSuit Φ frames) (ht : Φ.lookup name = some t) (hv : cs.suits v t)
    (assigned : frames.assign? name v = some frames') : cs.FramesSuit Φ frames' := by
  unfold Scopes.assign? at assigned
  obtain ⟨values', found, rfl⟩ := Option.map_eq_some_iff.1 assigned
  clear assigned
  unfold FramesSuit at h ⊢
  unfold Scopes.lookup at ht
  generalize Φ.frames = types at h ht ⊢
  generalize frames.frames = values at h found
  dsimp only
  induction h generalizing values' with
  | nil => cases found
  | @cons frame value types values first rest ih =>
    rw [List.findSome?_cons] at ht
    unfold Scopes.assignIn Table.has at found
    have here := first name
    revert here ht found
    cases hf : frame.get? name <;> cases value.get? name <;> intro ht found here
    · -- the frames have the same names, so that value and type are found in the same frame
      obtain ⟨values'', inner, rfl⟩ := Option.map_eq_some_iff.1 found
      exact .cons first (ih _ ht inner)
    · cases here
    · cases here
    · cases found
      cases ht
      exact .cons (first.replace hf hv) rest

end FramesSuit

end Classes

/-! ## States -/

/-- What a run sets out from: a well-made program, and what the caller has bound. -/
structure Outset (w : World) where
  program : Program
  given : Table Value
  made : ∃ env, program.WellMade w env

/-- The expressions of the program. -/
def Outset.nodes {w : World} (o : Outset w) : List Expr := Stmt.partsAll o.program.body

/-- A call site is for the member that a part of the program accesses through it. -/
theorem Outset.memberAt_eq {w : World} {o : Outset w} {e : Expr} (he : e ∈ o.nodes) {site : Nat} {m : Member}
    (ha : e.access? = some (site, m)) : o.program.memberAt site = m := by
  obtain ⟨env, made⟩ := o.made
  exact made.memberAt_eq he ha

/-- In a state all names hold what suits them: those of blocks what is expected in the frames, variables and inputs what
is recorded for them, and a name of which nothing is known what it held before the run. Of a variable only the types are
counted with which the program uses it. The call sites are bound as they should be. -/
structure Running.Holds {w : World} (o : Outset w) (env : Environment) (Φ : Scopes Ty) (s : Running) : Prop where
  frames : w.classes.FramesSuit Φ s.frames
  vars : ∀ i name, .declared i name ∈ o.nodes → env.vars.get? name = some i.type →
    ∀ v, s.bindings.get? name = some v → w.classes.suits v i.type
  inputs : ∀ name t, env.inputs.get? name = some t → ∀ v, s.bindings.get? name = some v → w.classes.suits v t
  kept : ∀ name, env.vars.get? name = none → env.inputs.get? name = none → s.bindings.get? name = o.given.get? name
  sites : o.program.Binds w.classes s.sites

namespace Running.Holds

variable {w : World} {o : Outset w} {env : Environment} {Φ Ψ : Scopes Ty} {s s' : Running} {name : String} {t : Ty}
  {v : Value}

/-- Only frames, bindings and call sites count. -/
theorem of_same (h : s.Holds o env Φ) (frames : s'.frames = s.frames) (bindings : s'.bindings = s.bindings)
    (sites : o.program.Binds w.classes s'.sites) : s'.Holds o env Φ := by
  refine ⟨?_, ?_, ?_, ?_, sites⟩
  · rw [frames]
    exact h.frames
  all_goals rw [bindings]
  · exact h.vars
  · exact h.inputs
  · exact h.kept

/-- Other frames. -/
theorem of_frames {frames : Scopes Value} (h : s.Holds o env Φ) (suit : w.classes.FramesSuit Ψ frames) :
    ({ s with frames := frames } : Running).Holds o env Ψ := ⟨suit, h.vars, h.inputs, h.kept, h.sites⟩

theorem push (h : s.Holds o env Φ) : ({ s with frames := s.frames.push } : Running).Holds o env Φ.push :=
  h.of_frames h.frames.push

theorem popped (h : s.Holds o env Φ) : ({ s with frames := s.frames.popped } : Running).Holds o env Φ.popped :=
  h.of_frames h.frames.popped

/-- Another value for a name that is recorded for the whole program. -/
theorem bind (h : s.Holds o env Φ) (hv : w.classes.suits v t)
    (known : (env.vars.get? name = some t ∧ env.inputs.get? name = none)
      ∨ (env.vars.get? name = none ∧ env.inputs.get? name = some t)) :
    ({ s with bindings := s.bindings.put name v } : Running).Holds o env Φ := by
  -- the name has one type, be it that of a variable or of an input, and every other name keeps its binding
  refine ⟨h.frames, fun i other hn ht r hr => ?_, fun other u hu r hr => ?_, fun other none none' => ?_, h.sites⟩
  · dsimp only at hr
    rw [Table.get?_put] at hr
    split at hr
    · rename_i same
      cases hr
      rw [same] at ht
      rcases known with ⟨known, -⟩ | ⟨known, -⟩
      · rw [known] at ht
        cases ht
        exact hv
      · rw [known] at ht
        cases ht
    · exact h.vars i other hn ht r hr
  · dsimp only at hr
    rw [Table.get?_put] at hr
    split at hr
    · rename_i same
      cases hr
      rw [same] at hu
      rcases known with ⟨-, known⟩ | ⟨-, known⟩
      · rw [known] at hu
        cases hu
      · rw [known] at hu
        cases hu
        exact hv
    · exact h.inputs other u hu r hr
  · dsimp only
    rw [Table.get?_put]
    split
    · rename_i same
      rw [same] at none none'
      rcases known with ⟨known, -⟩ | ⟨-, known⟩
      · rw [known] at none
        cases none
      · rw [known] at none'
        cases none'
    · exact h.kept other none none'

/-- A declaration for the whole program. -/
theorem declare (h : s.Holds o env Φ) (hv : w.classes.suits v t) :
    ({ s with bindings := s.bindings.put name v } : Running).Holds o (env.declare name t) Φ := by
  -- a variable takes the place of an input of its name
  have vars_eq (other : String) :
      (env.declare name t).vars.get? other = if other = name then some t else env.vars.get? other :=
    Table.get?_put env.vars name t other
  have inputs_eq (other : String) :
      (env.declare name t).inputs.get? other = if other = name then none else env.inputs.get? other :=
    Table.get?_erase env.inputs name other
  refine ⟨h.frames, fun i other hn ht r hr => ?_, fun other u hu r hr => ?_, fun other fresh fresh' => ?_, h.sites⟩
  · rw [vars_eq] at ht
    dsimp only at hr
    rw [Table.get?_put] at hr
    split at ht
    · rename_i same
      rw [if_pos same] at hr
      cases hr
      cases ht
      exact hv
    · rename_i differs
      rw [if_neg differs] at hr
      exact h.vars i other hn ht r hr
  · rw [inputs_eq] at hu
    dsimp only at hr
    rw [Table.get?_put] at hr
    split at hu
    · cases hu
    · rename_i differs
      rw [if_neg differs] at hr
      exact h.inputs other u hu r hr
  · rw [vars_eq] at fresh
    rw [inputs_eq] at fresh'
    dsimp only
    rw [Table.get?_put]
    split at fresh
    · cases fresh
    · rename_i differs
      rw [if_neg differs] at fresh' ⊢
      exact h.kept other fresh fresh'

/-- What a name is read as. -/
theorem readName (h : s.Holds o env Φ) {i : Info} (node : .declared i name ∈ o.nodes)
    (known : (Φ.lookup name).or (env.vars.get? name) = some i.type) :
    w.classes.suits (((s.frames.lookup name).or (s.bindings.get? name)).getD .null) i.type := by
  cases ht : Φ.lookup name with
  | some t =>
    rw [ht] at known
    cases known
    obtain ⟨v, found, suits⟩ := h.frames.lookup_of_some ht
    rw [found]
    exact suits
  | none =>
    rw [ht] at known
    rw [h.frames.lookup_of_none ht]
    cases bound : s.bindings.get? name with
    | none => exact w.classes.suits_null _
    | some v => exact h.vars i name node known v bound

/-- Another value for a name. -/
theorem writeName (h : s.Holds o env Φ) (apart : env.Apart)
    (known : (Φ.lookup name).or (env.vars.get? name) = some t) (hv : w.classes.suits v t) :
    (Exec.writeName name v s).2.Holds o env Φ := by
  have assigned := s.frames.isSome_assign? name v
  cases ht : Φ.lookup name with
  | some u =>
    rw [ht] at known
    cases known
    obtain ⟨r, found, -⟩ := h.frames.lookup_of_some ht
    rw [found] at assigned
    obtain ⟨frames, stored⟩ := Option.isSome_iff_exists.1 assigned
    rw [Exec.writeName_of_some stored]
    exact h.of_frames (h.frames.assign ht hv stored)
  | none =>
    rw [ht] at known
    have known : env.vars.get? name = some t := known
    rw [h.frames.lookup_of_none ht] at assigned
    rw [Exec.writeName_of_none (Option.isNone_iff_eq_none.1 (by simpa using assigned))]
    -- a variable is no input, so that the binding has to suit its type only
    have no_input := (apart name).resolve_left (by rw [known]; exact Option.some_ne_none t)
    exact h.bind hv (.inl ⟨known, no_input⟩)

/-- A declaration in a block. -/
theorem declareInBlock (h : s.Holds o env Φ) (inside : Φ.isEmpty = false) (hv : w.classes.suits v t) :
    (Exec.declare name v s).2.Holds o env (Φ.declaring name t) := by
  rw [Exec.declare_eq, h.frames.isEmpty_eq, inside]
  exact h.of_frames (h.frames.declaring name hv)

end Running.Holds

end HostExpr
