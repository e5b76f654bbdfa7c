import HostExpr.Proofs.Engine.Compile
import HostExpr.Proofs.Scope.Agreement
import HostExpr.Proofs.Value.Equality

/-!
# Which values can be displayed and compared

The text of a container is made of the texts of what it holds, and equality of containers asks for equality of what they
hold; neither is cut short. A value has a text just if no container within it is within itself, and two values can be
compared if this is true of one of them: `World.finishes_iff`. Nothing keeps a program from putting a container into
itself, as `growsInward` does, and such a program is stopped.
-/

namespace HostExpr

/-! ## Text -/

/-- There is a result for a list just if there is one for each of its items. -/
theorem isSome_mapM {α β : Type} {f : α → Option β} {l : List α} :
    (l.mapM f).isSome ↔ ∀ a ∈ l, (f a).isSome := by
  induction l with
  | nil => simp
  | cons a l ih =>
    rw [List.mapM_cons, List.forall_mem_cons, ← ih]
    cases f a with
    | none => simp
    | some b => cases l.mapM f <;> simp

namespace Heap

variable {heap : Heap} {cs : Classes} {v u : Value} {n : Nat}

/-- A value has a text under a bound just if containers nest within the bound. -/
theorem isSome_textWithin : (heap.textWithin cs n v).isSome ↔ heap.NestsWithin n v := by
  induction n generalizing v with
  | zero => cases v <;> simp [textWithin, NestsWithin, Value.container?]
  | succ n ih =>
    cases v with
    | list h | array h _ => simp [textWithin, NestsWithin, contents, isSome_mapM, ih]
    | map h =>
      let entryText (e : Value × Value) : Option String := do
        let key ← heap.textWithin cs n e.1
        let value ← heap.textWithin cs n e.2
        return key ++ "=" ++ value
      have entry (e : Value × Value) : (entryText e).isSome ↔ heap.NestsWithin n e.1 ∧ heap.NestsWithin n e.2 := by
        unfold entryText
        rw [← ih, ← ih]
        cases heap.textWithin cs n e.1 <;> cases heap.textWithin cs n e.2 <;> simp
      have whole : (heap.textWithin cs (n + 1) (.map h)).isSome = ((heap.entries h).mapM entryText).isSome := by
        unfold textWithin
        cases (heap.entries h).mapM entryText <;> rfl
      -- the text of a map is there if those of its keys and values are
      have inside : heap.NestsWithin (n + 1) (.map h) ↔
          ∀ e ∈ heap.entries h, heap.NestsWithin n e.1 ∧ heap.NestsWithin n e.2 := Cell.forall_mem_values
      rw [whole, isSome_mapM, inside]
      exact forall₂_congr fun e _ => entry e
    | _ => simp [textWithin, NestsWithin, contents]

/-- A value has a text just if no container within it is within itself. -/
theorem isSome_text? : (heap.text? cs v).isSome ↔ ¬ heap.SelfContaining v :=
  isSome_textWithin.trans ⟨NestsWithin.not_selfContaining, nestsWithin_size⟩

end Heap

/-! ## Displaying and comparing in a store -/

/-- The text of a value in a store is that of its heap, and asking for it changes nothing. -/
theorem Act.textOf_eq (cs : Classes) (v : Value) (s : Store) : Act.textOf cs v s =
    match s.heap.text? cs v with
    | some text => (.ok text, s)
    | none => (.error .selfContaining, s) := by
  have displayed : Act.text cs v s =
      match s.heap.text? cs v with
      | some text => (.ok text, s)
      | none => (.error .selfContaining, s) := by
    have step : Act.text cs v s =
      (match s.heap.text? cs v with
        | some text => return text
        | none => throw .selfContaining : Act String) s := rfl
    rw [step]
    cases s.heap.text? cs v <;> rfl
  cases v <;> first | rfl | exact displayed

/-- What goes on from the text of a value, and fails for no text, succeeds just if there is a text. -/
theorem Act.textOf_bind_iff {α : Type} {cs : Classes} {v : Value} {s : Store} {f : String → α} :
    (∃ r, (Act.textOf cs v >>= fun text => pure (f text)) s = (.ok r, s)) ↔ ¬ s.heap.SelfContaining v := by
  rw [bind_eq_bindCont, Act.textOf_eq, ← Heap.isSome_text?]
  cases s.heap.text? cs v with
  | none =>
    constructor
    · rintro ⟨_, failed⟩
      cases failed
    · intro found
      cases found
  | some text => exact ⟨fun _ => rfl, fun _ => ⟨_, rfl⟩⟩

/-- Two values can be compared in a store just if there is an answer in its heap. -/
theorem Act.equal_iff {v u : Value} {s : Store} :
    (∃ answer, (Act.equal v u s).1 = .ok answer) ↔ (s.heap.equal? v u).isSome := by
  have step : Act.equal v u s = (Act.ofAnswer (s.heap.equal? v u)) s := rfl
  rw [step]
  cases s.heap.equal? v u with
  | none =>
    constructor
    · rintro ⟨_, failed⟩
      cases failed
    · intro found
      cases found
  | some answer => exact ⟨fun _ => rfl, fun _ => ⟨answer, rfl⟩⟩

/-- A text is compared with a truth value whatever it spells. -/
theorem World.spellsBool_ok (w : World) (text : Value) (b : Bool) (s : Store) :
    ∃ answer, (w.spellsBool text b s).1 = .ok answer := by
  unfold World.spellsBool
  split
  · exact ⟨_, rfl⟩
  · exact ⟨_, rfl⟩

/-- Between containers, equality as programs see it is equality of values. -/
theorem World.looseEqual_of_containers (w : World) {v u : Value} {a b : Handle} (hv : v.container? = some a)
    (hu : u.container? = some b) : w.looseEqual v u = Act.equal v u := by
  cases v <;> cases hv <;> cases u <;> cases hu <;> rfl

/-- Equality as programs see it has an answer just if equality of values has one. -/
theorem World.looseEqual_iff (w : World) {v u : Value} {s : Store} :
    (∃ answer, (w.looseEqual v u s).1 = .ok answer) ↔ (s.heap.equal? v u).isSome := by
  constructor
  · intro compared
    by_contra silent
    -- without an answer both are containers, and nothing else is asked of containers
    have contains (x : Value) (cyclic : s.heap.SelfContaining x) : ∃ h, x.container? = some h := by
      by_contra plain
      have scalar : x.container? = none := Option.eq_none_iff_forall_not_mem.2 fun h hh => plain ⟨h, hh⟩
      exact Heap.NestsWithin.not_selfContaining (n := 0) scalar cyclic
    have both : s.heap.SelfContaining v ∧ s.heap.SelfContaining u := by
      by_contra plain
      exact silent (Heap.isSome_equal? (not_and_or.1 plain))
    obtain ⟨a, hv⟩ := contains v both.1
    obtain ⟨b, hu⟩ := contains u both.2
    rw [w.looseEqual_of_containers hv hu, Act.equal_iff] at compared
    exact silent compared
  · intro answered
    have equal := Act.equal_iff.2 answered
    unfold World.looseEqual
    cases equalNumbers? v u with
    | some answer => exact ⟨answer, rfl⟩
    | none =>
      dsimp only
      split
      · exact w.spellsBool_ok _ _ s
      · exact w.spellsBool_ok _ _ s
      next =>
        cases u.toFloat? with
        | some worth => exact ⟨_, rfl⟩
        | none => exact equal
      next =>
        cases v.toFloat? with
        | some worth => exact ⟨_, rfl⟩
        | none => exact equal
      · exact equal

/-- **Display and equality come to an end just where nothing contains itself.** In any store, a value has a displayed
form, under some bound on the depth of containers, just if no container within it is within itself; so it is when a text
is joined with the value, when the value is asked for its text, and when it is converted to one. Two values are compared
just if they are equal or different under some such bound. They are if one of them holds no container that is within
itself, and two lists that hold nothing but themselves are not. Nothing contains itself in a heap where nothing did after
a cell, or a new one, was given values that do not reach it. -/
theorem World.finishes_iff (w : World) (s : Store) (v u : Value) :
    ((∃ n, (s.heap.textWithin w.classes n v).isSome) ↔ ¬ s.heap.SelfContaining v)
    ∧ (∀ text, (∃ r, ArithOp.add.apply w.classes (.str text) v s = (.ok r, s)) ↔ ¬ s.heap.SelfContaining v)
    ∧ ((∃ r, Intrinsic.objectToString.run w.classes v [] s = (.ok r, s)) ↔ ¬ s.heap.SelfContaining v)
    ∧ (∀ c, Builtin.string.converter? w.classes = some c →
      ((∃ r, c.run v s = (.ok r, s)) ↔ ¬ s.heap.SelfContaining v))
    ∧ ((∃ answer, (w.compare .eq v u s).1 = .ok answer) ↔ ∃ n, (s.heap.equalWithin n v u).isSome)
    ∧ (¬ s.heap.SelfContaining v ∨ ¬ s.heap.SelfContaining u → ∃ n, (s.heap.equalWithin n v u).isSome)
    ∧ (∀ a b, a ≠ b → s.heap.items a = [.list a] → s.heap.items b = [.list b] →
      ∀ n, s.heap.equalWithin n (.list a) (.list b) = none)
    ∧ (s.heap.Grounded →
      (∀ h cell, (∀ x ∈ cell.values, ¬ s.heap.Reaches x h) → (s.heap.put h cell).Grounded)
      ∧ ∀ cell, (∀ x ∈ cell.values, ¬ s.heap.Reaches x s.heap.size) → (s.heap.alloc cell).2.Grounded) := by
  -- each of the ways to a text asks for that of the value and nothing else that can fail
  refine ⟨?display, fun text => ?join, ?ask, ?convert, ?compare, ?plain, ?twins, ?store⟩
  case display => simp only [Heap.isSome_textWithin, Heap.nestsWithin_iff]
  case join => exact Act.textOf_bind_iff (f := fun r => Value.str (text ++ r))
  case ask => exact Act.textOf_bind_iff (f := Value.str)
  case convert =>
    intro c hc
    cases hc
    exact Act.textOf_bind_iff (f := Value.str)
  case compare => exact w.looseEqual_iff.trans Heap.isSome_equal?_iff
  case plain => exact fun plain => Heap.isSome_equal?_iff.1 (Heap.isSome_equal? plain)
  case twins => exact fun a b other ha hb n => Heap.equalWithin_of_twins other ha hb
  case store => exact fun grounded => ⟨fun h cell => grounded.put, fun cell => grounded.alloc⟩

/-! ## A list within itself -/

/-- A program that puts a list into itself and displays it. -/
def growsInward : String := "List<Object> xs = []; xs.add(xs); '' + xs; 1"

/-- The value has no text when it is asked for one. -/
def asksInVain (w : World) (s : Store) (v : Value) : Bool :=
  (Intrinsic.objectToString.run w.classes v [] s).1.toOption.isNone

/-- The list that the program leaves behind is within itself, so that the program stops where it displays the list. There
is no text of it, however deep containers may nest. It can be compared with what is not within itself. -/
theorem finishes_iff_growsInward :
    ∃ x, Engine.bare.compile growsInward false .default = .ok x
      ∧ let result := (⟨.ofHeap .empty, [], x⟩ : Workspace).executeWith .bare .specialized .default .null
        result.1 = .error (.stopped (.runtime .selfContaining))
        ∧ ∃ xs, result.2.bindings.get? "xs" = some xs
          ∧ result.2.store.heap.SelfContaining xs
          ∧ (∀ n, result.2.store.heap.textWithin World.bare.classes n xs = none)
          ∧ ∃ answer, (World.bare.compare .eq xs (.int 1) result.2.store).1 = .ok answer := by
  have found : (Engine.bare.compile growsInward false .default).toOption.any fun x =>
      let result := (⟨.ofHeap .empty, [], x⟩ : Workspace).executeWith .bare .specialized .default .null
      decide (result.1 = .error (.stopped (.runtime .selfContaining)))
        && (result.2.bindings.get? "xs").any (asksInVain .bare result.2.store) := by
    decide +kernel
  obtain ⟨x, hx, checked⟩ := exists_ok_of_any found
  obtain ⟨stopped, left⟩ := Bool.and_eq_true_iff.1 checked
  obtain ⟨xs, bound, vain⟩ := (Option.any_eq_true _ _).1 left
  let s := ((⟨.ofHeap .empty, [], x⟩ : Workspace).executeWith .bare .specialized .default .null).2.store
  obtain ⟨display, -, ask, -, compare, plain, -, -⟩ := World.finishes_iff .bare s xs (.int 1)
  have within : s.heap.SelfContaining xs := by
    by_contra plain
    obtain ⟨r, answered⟩ := ask.2 plain
    rw [asksInVain, answered] at vain
    cases vain
  have number : ¬ s.heap.SelfContaining (.int 1) := Heap.NestsWithin.not_selfContaining (n := 0) rfl
  refine ⟨x, hx, of_decide_eq_true stopped, xs, bound, within, fun n => ?_, compare.2 (plain (.inr number))⟩
  by_contra some
  exact display.1 ⟨n, Option.isSome_iff_ne_none.2 some⟩ within

end HostExpr
