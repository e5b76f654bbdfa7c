import HostExpr.Proofs.Scope.Frames
import HostExpr.Proofs.Scope.Tracking

/-!
# Tracked steps beside plain ones

`Tracks` relates a tracked step to the step that it stands for: without the marks both do the same, and all accesses
that the tracked step notes are sound, if the marks are as a condition says when it starts. There is a rule for each
way of putting steps together. `Marks.Fits` is the condition that the rules carry along: the open frames are those
that the text lets expect, and every entry was made by the latest execution of its declaration.
-/

namespace HostExpr

/-! ## What marks are like -/

namespace Marks

/-- All accesses so far were sound. -/
def Sound (m : Marks) : Prop := ∀ a ∈ m.accesses, a.Sound

/-- The frames are those expected at a place of the program, and all entries are the latest. -/
structure Fits (m : Marks) (Φ : Scopes Path) : Prop where
  paths : m.frames.map (fun entry => entry.2.path) = Φ
  latest : ∀ entry, m.frames.Has entry → entry.2.turn = m.turns entry.2.path

/-- The marks in a new block. -/
def opening (m : Marks) : Marks := { m with frames := m.frames.push }

/-- The marks behind the innermost block. -/
def closing (m : Marks) : Marks := { m with frames := m.frames.popped }

variable {m : Marks} {Φ : Scopes Path}

theorem Fits.opening (h : m.Fits Φ) : m.opening.Fits Φ.push where
  paths := by
    have := h.paths
    simp only [Marks.opening, Scopes.map_push, this]
  latest entry he := h.latest entry (Scopes.has_push.1 he)

theorem Fits.closing (h : m.Fits Φ) : m.closing.Fits Φ.popped where
  paths := by
    have := h.paths
    simp only [Marks.closing, Scopes.map_popped, this]
  latest entry he := h.latest entry (Scopes.Has.of_popped he)

/-- What a name finds is of the declaration that the frames are expected to have for it. -/
theorem Fits.lookup (h : m.Fits Φ) (name : String) :
    (m.frames.lookup name).map (fun entry => entry.2.path) = Φ.lookup name := by
  rw [← h.paths, Scopes.lookup_map]

/-- What a name finds was made by the latest execution of its declaration. -/
theorem Fits.origin_eq (h : m.Fits Φ) {name : String} {v : Value} {origin : Execution}
    (he : m.frames.lookup name = some (v, origin)) : origin = ⟨origin.path, m.turns origin.path⟩ := by
  have := h.latest _ (Scopes.has_of_lookup he)
  rw [← this]

/-- The frames of a fitting state are open if blocks are expected to be. -/
theorem Fits.isEmpty_eq (h : m.Fits Φ) : m.frames.isEmpty = Φ.isEmpty := by
  rw [← h.paths, Scopes.isEmpty_map]

end Marks

/-! ## Steps side by side -/

section

variable {α β : Type}

/-- A tracked step that starts from marks with `P`, and the step that it stands for. -/
def Tracks (P : Marks → Prop) (x : Tracking α) (y : Exec α) (Q : α → Marks → Prop) : Prop :=
  ∀ t : Tracked, P t.marks → t.marks.Sound →
    y t.erase = ((x t).1, (x t).2.erase)
    ∧ (x t).2.marks.Sound
    ∧ ∀ a, (x t).1 = .ok a → Q a (x t).2.marks

/-- A tracked step between two places of a program, whose frames are known. -/
abbrev Follows (Φ : Scopes Path) (x : Tracking α) (y : Exec α) (Ψ : Scopes Path) : Prop :=
  Tracks (·.Fits Φ) x y fun _ m => m.Fits Ψ

namespace Tracks

variable {P : Marks → Prop} {Q : α → Marks → Prop} {R : β → Marks → Prop}

theorem pure {a : α} (h : ∀ m, P m → Q a m) : Tracks P (Pure.pure a) (Pure.pure a) Q := by
  intro t hp hs
  refine ⟨rfl, hs, ?_⟩
  intro b hb
  cases hb
  exact h _ hp

/-- What fails has nothing to say of the marks after it. -/
theorem throw (e : Stop) : Tracks P (MonadExcept.throw e : Tracking α) (MonadExcept.throw e) Q := by
  intro t hp hs
  refine ⟨rfl, hs, ?_⟩
  intro b hb
  cases hb

/-- One step after the other. -/
theorem bind {x : Tracking α} {y : Exec α} {f : α → Tracking β} {g : α → Exec β} (hx : Tracks P x y Q)
    (hf : ∀ a, Tracks (Q a) (f a) (g a) R) : Tracks P (x >>= f) (y >>= g) R := by
  intro t hp hs
  obtain ⟨same, sound, after⟩ := hx t hp hs
  rw [bind_eq_bindCont, bind_eq_bindCont, same]
  cases hr : (x t).1 with
  | ok a => exact hf a _ (after a hr) sound
  | error e =>
    refine ⟨rfl, sound, ?_⟩
    intro b hb
    cases hb

theorem map {x : Tracking α} {y : Exec α} (f : α → β) (hx : Tracks P x y Q)
    (h : ∀ a m, Q a m → R (f a) m) : Tracks P (f <$> x) (f <$> y) R :=
  hx.bind fun a => .pure (h a)

/-- A step that leaves the frames alone keeps what is said of the marks. -/
theorem lift {y : Exec α} (hy : Exec.KeepsFrames y) : Tracks P (Tracking.lift y) y fun _ => P := by
  intro t hp hs
  refine ⟨?_, hs, fun _ _ => hp⟩
  have kept : (y t.erase).2.frames = t.marks.frames.map Prod.fst := hy t.erase
  show y t.erase = ((y t.erase).1, { (y t.erase).2 with frames := t.marks.frames.map Prod.fst })
  rw [← kept]
  rfl

/-- Less may be said of the marks after a step. -/
theorem weaken {x : Tracking α} {y : Exec α} {Q' : α → Marks → Prop} (hx : Tracks P x y Q)
    (h : ∀ a m, Q a m → Q' a m) : Tracks P x y Q' := by
  intro t hp hs
  obtain ⟨same, sound, after⟩ := hx t hp hs
  exact ⟨same, sound, fun a ha => h a _ (after a ha)⟩

theorem nested {x : Tracking α} {y : Exec α} (limits : Limits) (hx : Tracks P x y Q) :
    Tracks P (Tracking.nested limits x) (Exec.nested limits y) Q := by
  intro t hp hs
  unfold Tracking.nested Exec.nested
  have depth_eq : t.erase.depth = t.base.depth := rfl
  rw [depth_eq]
  by_cases hd : limits.maxDepth ≤ t.base.depth
  · rw [if_pos hd, if_pos hd]
    refine ⟨rfl, hs, ?_⟩
    intro b hb
    cases hb
  · rw [if_neg hd, if_neg hd]
    obtain ⟨same, sound, after⟩ := hx { t with base.depth := t.base.depth + 1 } hp hs
    have erased : { t.erase with depth := t.base.depth + 1 }
        = Tracked.erase { t with base.depth := t.base.depth + 1 } := rfl
    rw [erased, same]
    exact ⟨rfl, sound, after⟩

/-- A block. What is known of the marks behind it is known when its frame is closed. -/
theorem inBlock {x : Tracking α} {y : Exec α} {Φ : Scopes Path}
    (hx : Tracks (·.Fits Φ.push) x y fun _ m => m.closing.Fits Φ) :
    Follows Φ (Tracking.inBlock x) (Exec.inBlock y) Φ := by
  intro t hp hs
  let opened : Tracked := { t with marks := t.marks.opening }
  obtain ⟨same, sound, after⟩ := hx opened hp.opening hs
  have tracked : Tracking.inBlock x t = ((x opened).1, { (x opened).2 with marks := (x opened).2.marks.closing }) :=
    rfl
  have plain : Exec.inBlock y t.erase
      = ((y opened.erase).1, { (y opened.erase).2 with frames := (y opened.erase).2.frames.popped }) := rfl
  rw [tracked, plain, same]
  refine ⟨?_, sound, after⟩
  simp only [Tracked.erase, Marks.closing, Scopes.map_popped]

end Tracks

end

/-! ## Names -/

section

variable {Γ : Scopes Declared} {Φ : Scopes Path} {m : Marks}

/-- What an access to a name finds is what it should, if the access leaves the bindings alone whenever it finds
something. -/
theorem Marks.Fits.sound_access (h : m.Fits Φ) (hc : Covers Γ Φ) {name : String} {d : Declared}
    (hd : Γ.lookup name = some d) {before after : Table Value}
    (hb : (m.frames.lookup name).isSome → after = before) :
    NameAccess.Sound ⟨d, (m.frames.lookup name).map Prod.snd, m.turns d.path, before, after⟩ := by
  have path_eq := h.lookup name
  unfold NameAccess.Sound
  cases he : m.frames.lookup name with
  | none =>
    rw [he] at path_eq
    split
    · -- a declaration that is kept is there, so that the name cannot be missing
      rename_i hk
      rw [hc.kept name d hd hk] at path_eq
      cases path_eq
    · intro e hn
      cases hn
  | some entry =>
    obtain ⟨v, origin⟩ := entry
    rw [he] at path_eq hb
    have made := h.origin_eq he
    split
    · rename_i hk
      rw [hc.kept name d hd hk] at path_eq
      have : origin.path = d.path := Option.some.inj path_eq
      refine ⟨?_, hb rfl⟩
      rw [Option.map_some, made, this]
    · rename_i hk
      have hk : d.kept = false := by simpa using hk
      intro e hs
      cases hs
      intro hp
      -- what is found lies on the path of the run, and a declaration that is not kept does not
      have found : Φ.lookup name = some origin.path := path_eq.symm
      exact hc.gone d (Scopes.has_of_lookup hd) hk (hp ▸ Scopes.has_of_lookup found)

/-- Noting a sound access. -/
theorem Tracked.sound_noting {t : Tracked} {declared : Option Declared} {found : Option Execution}
    {before : Table Value} (hs : t.marks.Sound)
    (ha : ∀ d, declared = some d → NameAccess.Sound ⟨d, found, t.marks.turns d.path, before, t.base.bindings⟩) :
    (t.noting declared found before).marks.Sound := by
  unfold noting
  split
  · exact hs
  · intro a h
    rcases List.mem_cons.1 h with rfl | h
    · exact ha _ rfl
    · exact hs a h

/-- Noting an access changes nothing else. -/
theorem Tracked.erase_noting (t : Tracked) (declared : Option Declared) (found : Option Execution)
    (before : Table Value) : (t.noting declared found before).erase = t.erase := by
  unfold noting
  split <;> rfl

/-- Noting an access does not change the frames. -/
theorem Tracked.fits_noting {t : Tracked} (h : t.marks.Fits Φ) (declared : Option Declared)
    (found : Option Execution) (before : Table Value) : (t.noting declared found before).marks.Fits Φ := by
  unfold noting
  split
  · exact h
  · exact ⟨h.paths, h.latest⟩

theorem Exec.modify_eq (f : Running → Running) (s : Running) : (modify f : Exec Unit) s = (.ok (), f s) := rfl

/-- Reading a name. -/
theorem Tracks.readName (hc : Covers Γ Φ) (name : String) :
    Follows Φ (Tracking.readName Γ name) (Exec.readName name) Φ := by
  intro t hp hs
  refine ⟨?_, ?_, ?_⟩
  · have looked : t.erase.frames.lookup name = (t.marks.frames.lookup name).map Prod.fst :=
      Scopes.lookup_map _ _ _
    show ((.ok (((t.erase.frames.lookup name).or (t.base.bindings.get? name)).getD .null), t.erase)
      : Except Stop Value × Running) = _
    rw [looked]
    unfold Tracking.readName
    rw [Tracked.erase_noting]
  · refine Tracked.sound_noting hs ?_
    intro d hd
    exact hp.sound_access hc hd fun _ => rfl
  · intro v _
    exact Tracked.fits_noting hp _ _ _

/-- A new value in an entry leaves the origins of all entries. -/
theorem Marks.Fits.assign? (h : m.Fits Φ) {name : String} {v w : Value} {origin : Execution}
    (he : m.frames.lookup name = some (w, origin)) {frames : Scopes (Value × Execution)}
    (hf : m.frames.assign? name (v, origin) = some frames) :
    Marks.Fits { m with frames := frames } Φ where
  paths := by
    have path_eq := h.lookup name
    rw [he] at path_eq
    have assigned := Scopes.assign?_map (fun entry : Value × Execution => entry.2.path) m.frames name (v, origin)
    rw [hf, h.paths, Scopes.assign?_of_lookup path_eq.symm] at assigned
    exact (Option.some.inj assigned).symm
  latest entry hm := by
    rcases hm.of_assign? hf with rfl | hm
    · exact h.latest (w, origin) (Scopes.has_of_lookup he)
    · exact h.latest entry hm

/-- A value that is stored goes to the variable of a block, if there is one. -/
theorem Exec.writeName_of_some {s : Running} {name : String} {v : Value} {frames : Scopes Value}
    (h : s.frames.assign? name v = some frames) :
    Exec.writeName name v s = (.ok (), { s with frames := frames }) := by
  unfold Exec.writeName
  rw [Exec.modify_eq, h]

/-- Without one it goes to the bindings. -/
theorem Exec.writeName_of_none {s : Running} {name : String} {v : Value} (h : s.frames.assign? name v = none) :
    Exec.writeName name v s = (.ok (), { s with bindings := s.bindings.put name v }) := by
  unfold Exec.writeName
  rw [Exec.modify_eq, h]

/-- Storing into a name. -/
theorem Tracks.writeName (hc : Covers Γ Φ) (name : String) (v : Value) :
    Follows Φ (Tracking.writeName Γ name v) (Exec.writeName name v) Φ := by
  intro t hp hs
  have access : ∀ d, Γ.lookup name = some d → ∀ after : Table Value,
      ((t.marks.frames.lookup name).isSome → after = t.base.bindings) →
      NameAccess.Sound
        ⟨d, (t.marks.frames.lookup name).map Prod.snd, t.marks.turns d.path, t.base.bindings, after⟩ :=
    fun d hd after hb => hp.sound_access hc hd hb
  unfold Tracking.writeName
  cases he : t.marks.frames.lookup name with
  | none =>
    -- no frame has the name, so the value goes to the bindings
    have missed : t.erase.frames.assign? name v = none := by
      have := Scopes.isSome_assign? t.erase.frames name v
      rw [show t.erase.frames.lookup name = none by simp [Tracked.erase, he]] at this
      simpa using this
    rw [he] at access
    refine ⟨?_, ?_, ?_⟩
    · rw [Exec.writeName_of_none missed]
      simp only [Option.bind_none, Tracked.erase_noting]
      rfl
    · refine Tracked.sound_noting hs ?_
      intro d hd
      exact access d hd _ fun h => by cases h
    · intro u _
      have fits : ({ t with base.bindings := t.base.bindings.put name v } : Tracked).marks.Fits Φ := hp
      exact Tracked.fits_noting fits _ _ _
  | some entry =>
    obtain ⟨w, origin⟩ := entry
    have assigned := Scopes.isSome_assign? t.marks.frames name (v, origin)
    rw [he] at assigned
    obtain ⟨frames, hf⟩ := Option.isSome_iff_exists.1 assigned
    have stored : t.erase.frames.assign? name v = some (frames.map Prod.fst) := by
      have := Scopes.assign?_map Prod.fst t.marks.frames name (v, origin)
      rw [hf] at this
      exact this
    rw [he] at access
    refine ⟨?_, ?_, ?_⟩
    · rw [Exec.writeName_of_some stored]
      simp only [Option.bind_some, hf, Tracked.erase_noting]
      rfl
    · simp only [Option.bind_some, hf]
      refine Tracked.sound_noting hs ?_
      intro d hd
      exact access d hd _ fun _ => rfl
    · intro u _
      have fits : ({ t with marks.frames := frames } : Tracked).marks.Fits Φ := hp.assign? he hf
      simp only [Option.bind_some, hf]
      exact Tracked.fits_noting fits _ _ _

/-- A declaration goes to the innermost block, or to the bindings if there is none. -/
theorem Exec.declare_eq (s : Running) (name : String) (v : Value) :
    Exec.declare name v s = (.ok (), if s.frames.isEmpty then { s with bindings := s.bindings.put name v }
      else { s with frames := s.frames.declaring name v }) := by
  unfold Exec.declare
  rw [Exec.modify_eq, Scopes.declare_eq]
  cases s.frames.isEmpty <;> rfl

/-- An execution of the declaration at a path, of which no frame has an entry yet. -/
theorem Tracks.declare {p : Path} (hp : ¬ Φ.Has p) (name : String) (v : Value) :
    Follows Φ (Tracking.declare p name v) (Exec.declare name v) (Φ.declaring name p) := by
  intro t hf hs
  -- no entry stems from this declaration yet, so that counting its turns leaves the others' as they are
  have others : ∀ entry, t.marks.frames.Has entry → entry.2.path ≠ p := by
    intro entry he hpath
    have := Scopes.has_map_of_has (fun entry : Value × Execution => entry.2.path) he
    rw [hf.paths] at this
    exact hp (hpath ▸ this)
  have plain : Exec.declare name v t.erase
      = (.ok (), if t.marks.frames.isEmpty then { t.erase with bindings := t.base.bindings.put name v }
        else { t.erase with frames := t.erase.frames.declaring name v }) := by
    rw [Exec.declare_eq, show t.erase.frames.isEmpty = t.marks.frames.isEmpty from Scopes.isEmpty_map _ _]
    rfl
  rw [plain]
  unfold Tracking.declare
  -- outside of all blocks a declaration is a binding, and the frames stay empty
  by_cases he : t.marks.frames.isEmpty
  · simp only [he, if_true]
    refine ⟨rfl, hs, ?_⟩
    intro u _
    have empty : Φ.isEmpty := hf.isEmpty_eq ▸ he
    refine ⟨?_, ?_⟩
    · rw [Scopes.declaring_of_isEmpty empty]
      exact hf.paths
    · intro entry hm
      show entry.2.turn = if entry.2.path = p then _ else t.marks.turns entry.2.path
      rw [if_neg (others entry hm), hf.latest entry hm]
  · simp only [he, Bool.false_eq_true, if_false]
    refine ⟨?_, hs, ?_⟩
    · simp only [Tracked.erase, Scopes.map_declaring]
    · intro u _
      refine ⟨?_, ?_⟩
      · simp only [Scopes.map_declaring, hf.paths]
      · intro entry hm
        rcases hm.of_declaring with rfl | hm
        · simp
        · simp only [if_neg (others entry hm), hf.latest entry hm]

end

end HostExpr
