import HostExpr.Proofs.Call.Proper

/-!
# Conversions give what they are asked for

A conversion to a class gives a value of the class, and a conversion to a type one that satisfies the type, as far as
the host's conversions keep what they promise. So the arguments that are bound to parameters satisfy them.
-/

namespace HostExpr

open Act

/-! ## Types fit themselves -/

namespace Classes

variable (cs : Classes)

/-- A class is one of its own superclasses. -/
theorem isSubclass_refl (c : ClassRef) : cs.isSubclass c c := by
  have first : c ∈ cs.lineage c := by
    cases c with
    | host n => exact List.mem_cons_self
    | builtin b => cases b <;> exact List.mem_cons_self
  simp [isSubclass, first]

mutual

/-- A type accepts itself. -/
theorem assignable_refl (t : Ty) : cs.assignable t t := by
  obtain ⟨c, as⟩ := t
  unfold assignable
  split
  · rfl
  · rw [cs.isSubclass_refl c]
    simp [argsAssignable_refl _ as]

theorem argsAssignable_refl (items : Bool) (ts : List Ty) : cs.argsAssignable items ts ts := by
  cases ts with
  | nil => rfl
  | cons t ts =>
    unfold argsAssignable
    simp [argsAssignable_refl items ts]

end

/-- An array satisfies the array type whose items its own items can be stored among. -/
theorem satisfies_array {h : Handle} {item given : Ty} {rest : List Ty} (fits : cs.assignable item given) :
    cs.satisfies (.array h given) (.mk (.builtin .array) (item :: rest)) := by
  unfold satisfies
  split
  · rfl
  · show (_ && (_ || _ || cs.assignable item given)) = true
    simp [fits, Ty.isArray, Ty.cls]

/-- A value of the class of a type satisfies it, unless it is an array type with items of a type. -/
theorem satisfies_of_isSubclass {v : Value} {t : Ty} (ht : ∀ item rest, t ≠ .mk (.builtin .array) (item :: rest))
    (h : cs.isSubclass v.classRef t.cls) : cs.satisfies v t := by
  obtain ⟨c, as⟩ := t
  unfold satisfies
  split
  · rfl
  · rename_i known
    have static : c.isDynamic = false := by
      cases hd : c.isDynamic with
      | false => rfl
      | true => exact absurd (by simp [Ty.isDynamic, Ty.cls, hd]) known
    split
    · -- the only superclass of an array that says anything is `Array`
      have lone : c = .builtin .array := by
        simpa [isSubclass, Ty.cls, static, Value.classRef, lineage, Builtin.lineage, of_decide_eq_false static] using h
      have bare : as = [] := by
        cases as with
        | nil => rfl
        | cons item rest => exact absurd (by rw [lone]) (ht item rest)
      simp [lone, bare, Ty.isArray, Ty.cls, Ty.args]
    · exact h

end Classes

namespace World

variable {w : World}

/-! ## Conversion to a class -/

/-- The value is of the class, if the host's conversions keep their promises. -/
def OfClass (w : World) (c : ClassRef) (v : Value) : Prop := w.KeepsPromises → w.classes.isSubclass v.classRef c

/-- A value of just the class. -/
theorem OfClass.of_eq {c : ClassRef} {v : Value} (h : v.classRef = c) : w.OfClass c v := by
  intro _
  rw [h]
  exact w.classes.isSubclass_refl c

section

variable (cs : Classes) (v : Value)

theorem proper_toInt : Proper w (toInt cs v) (w.OfClass (.builtin .integer)) := by
  unfold toInt
  dsimp only
  repeat' split
  all_goals first | exact .pure (.of_eq rfl) | exact .throw nofun

theorem proper_toLong : Proper w (toLong cs v) (w.OfClass (.builtin .long)) := by
  unfold toLong
  dsimp only
  repeat' split
  all_goals first | exact .pure (.of_eq rfl) | exact .throw nofun

theorem proper_toDouble : Proper w (toDouble cs v) (w.OfClass (.builtin .double)) := by
  unfold toDouble
  dsimp only
  repeat' split
  all_goals first | exact .pure (.of_eq rfl) | exact .throw nofun

theorem proper_toBool : Proper w (toBool cs v) (w.OfClass (.builtin .boolean)) := by
  unfold toBool
  dsimp only
  repeat' split
  all_goals first | exact .pure (.of_eq rfl) | exact .throw nofun

theorem proper_toList : Proper w (toList cs v) (w.OfClass (.builtin .list)) := by
  unfold toList
  split
  · rename_i h item
    exact (Proper.quiet (quiet_items h)).bind fun items _ => (Proper.quiet (quiet_alloc _)).map fun _ _ => .of_eq rfl
  · exact .pure (.of_eq rfl)
  · exact .throw nofun

theorem proper_toArray : Proper w (toArray cs v) (w.OfClass (.builtin .array)) := by
  unfold toArray
  split
  · rename_i h
    exact (Proper.quiet (quiet_items h)).bind fun items _ => (Proper.quiet (quiet_alloc _)).map fun _ _ => .of_eq rfl
  · exact .pure (.of_eq rfl)
  · exact .throw nofun

/-- A built-in conversion gives a value of its class. -/
theorem proper_builtinConverter {b : Builtin} {c : Converter} (h : b.converter? cs = some c) :
    Proper w (c.run v) (w.OfClass (.builtin b)) := by
  cases b with
  | string =>
    cases h
    exact (Proper.quiet (quiet_textOf cs v)).map fun _ _ => .of_eq rfl
  | integer =>
    cases h
    exact proper_toInt cs v
  | long =>
    cases h
    exact proper_toLong cs v
  | double =>
    cases h
    exact proper_toDouble cs v
  | boolean =>
    cases h
    exact proper_toBool cs v
  | list =>
    cases h
    exact proper_toList cs v
  | array =>
    cases h
    exact proper_toArray cs v
  | object => cases h
  | null => cases h
  | map => cases h
  | cls => cases h

end

/-- A conversion of the host keeps its promise. -/
theorem proper_handler {target : ClassRef} {h : Handler} (found : w.handlers.lookup target = some h) (v : Value) :
    Proper w (liftHeap .conversion (h.convert v)) (w.OfClass target) := by
  refine .of_quiet (fun s => ?_) fun s r hr promised => ?_
  · unfold liftHeap
    split
    · exact ⟨rfl, nofun⟩
    · exact ⟨rfl, nofun⟩
  · -- what a handler gives is as the host promises, and the heap act passes it on
    obtain ⟨before, rest, split, -⟩ := List.lookup_eq_some_iff.1 found
    have listed : (target, h) ∈ w.handlers := by
      rw [split]
      exact List.mem_append_right _ List.mem_cons_self
    refine promised target h listed v s.heap r ?_
    unfold liftHeap at hr
    cases hc : h.convert v s.heap with
    | mk outcome heap =>
      rw [hc] at hr
      cases outcome with
      | ok r' =>
        cases hr
        rfl
      | error e => cases hr

/-- A conversion to a class gives a value of the class. -/
theorem proper_converter {target : ClassRef} {c : Converter} (found : w.converter? target = some c) (v : Value) :
    Proper w (c.run v) (w.OfClass target) := by
  unfold converter? at found
  split at found
  · rename_i h hl
    cases found
    exact proper_handler hl v
  · split at found
    · exact proper_builtinConverter w.classes v found
    · cases found

/-- The record of a conversion is no call. -/
theorem proper_runConverter {c : Converter} {v : Value} {Q : Value → Prop} (h : Proper w (c.run v) Q)
    (target : ClassRef) : Proper w (runConverter c target v) Q := by
  intro s
  obtain ⟨new, grown, good, reported, gives⟩ := h s
  -- the conversion itself is one more event, about which nothing is promised
  have recorded (outcome : Except ConversionError Value) :
      w.KeepsPromises → ∀ event ∈ Event.converted target v outcome :: new, w.ProperEvent event := by
    intro promised event he
    rcases List.mem_cons.1 he with rfl | he
    · trivial
    · exact good promised event he
  unfold runConverter
  split
  · rename_i r s' hr
    rw [hr] at grown gives
    exact ⟨.converted target v (.ok r) :: new, congrArg (List.cons _) grown, recorded _, nofun, gives⟩
  · rename_i e s' hr
    rw [hr] at grown
    exact ⟨.converted target v (.error e) :: new, congrArg (List.cons _) grown, recorded _, nofun, nofun⟩
  · rename_i e s' _ hr
    rw [hr] at grown reported
    exact ⟨new, grown, good, reported, nofun⟩

/-- Conversion to a class. -/
theorem proper_convert (w : World) (v : Value) (target : ClassRef) :
    Proper w (w.convert v target) (w.OfClass target) := by
  unfold convert
  split
  · rename_i fits
    refine .pure fun _ => ?_
    rcases Bool.or_eq_true _ _ ▸ fits with null | sub
    · have : v = .null := of_decide_eq_true null
      simp [this, Classes.isSubclass, Value.classRef]
    · exact sub
  · split
    · rename_i c found
      split
      · exact proper_runConverter (proper_converter found v) target
      · exact .throw fun _ => RuntimeError.noConfusion
    · exact .throw fun _ => RuntimeError.noConfusion

/-! ## Conversion to a type -/

/-- The value satisfies the type, if the host's conversions keep their promises. -/
def OfType (w : World) (t : Ty) (v : Value) : Prop := w.KeepsPromises → w.classes.satisfies v t

/-- Conversion to a type, by induction on the type: the items of an array are converted to a part of it. -/
theorem proper_convertTo (w : World) (t : Ty) (v : Value) : Proper w (w.convertTo t v) (w.OfType t) := by
  unfold convertTo
  split
  · rename_i item rest
    -- the items are fitted one by one, whether they come from a list or from an array that does not fit as it is
    have refit (items : List Value) : Proper w (do newArray item (← items.mapM (w.convertTo item)))
        (w.OfType (.mk (.builtin .array) (item :: rest))) := by
      have each (v : Value) : Proper w (w.convertTo item v) fun _ => True :=
        (w.proper_convertTo item v).weaken fun _ _ => trivial
      refine (Proper.mapM each items).bind fun items _ => ?_
      refine (Proper.quiet (quiet_alloc _)).map fun h _ _ => ?_
      exact w.classes.satisfies_array (w.classes.assignable_refl item)
    dsimp only
    split
    · rename_i h given
      split
      · rename_i fits
        exact .pure fun _ => w.classes.satisfies_array fits
      · exact (Proper.quiet (quiet_items h)).bind fun items _ => refit items
    · rename_i h
      exact (Proper.quiet (quiet_items h)).bind fun items _ => refit items
    · exact .pure fun _ => by simp [Classes.satisfies, Value.isNull]
    · exact .throw fun _ => RuntimeError.noConfusion
  · rename_i other
    split
    · rename_i fits
      exact .pure fun _ => fits
    · refine (w.proper_convert v t.cls).weaken fun r sub promised => ?_
      exact w.classes.satisfies_of_isSubclass other (sub promised)
termination_by sizeOf t

/-- There are as many values as types, and each value satisfies its own type. -/
def OfTypes (w : World) (ts : List Ty) (vs : List Value) : Prop :=
  vs.length = ts.length ∧ (w.KeepsPromises → w.classes.satisfiesAll vs ts)

theorem OfTypes.nil : w.OfTypes [] [] := ⟨rfl, fun _ => rfl⟩

theorem OfTypes.cons {t : Ty} {ts : List Ty} {v : Value} {vs : List Value} (h : w.OfType t v) (rest : w.OfTypes ts vs) :
    w.OfTypes (t :: ts) (v :: vs) := by
  refine ⟨congrArg (· + 1) rest.1, fun promised => ?_⟩
  have others := rest.2 promised
  unfold Classes.satisfiesAll at others ⊢
  rw [List.zip_cons_cons, List.all_cons, others, Bool.and_true]
  exact h promised

/-- As many arguments as there are parameters, each made to fit its own. -/
theorem proper_bindArgs (w : World) {params : List Ty} {args : List Value} (hl : args.length = params.length) :
    Proper w (w.bindArgs params args) (w.OfTypes params) := by
  unfold bindArgs
  induction args generalizing params with
  | nil =>
    obtain rfl := List.length_eq_zero_iff.1 hl.symm
    exact .pure .nil
  | cons arg args ih =>
    cases params with
    | nil => cases hl
    | cons param params =>
      rw [List.zip_cons_cons, List.mapM_cons]
      refine (w.proper_convertTo param arg).bind fun v fits => ?_
      exact (ih (Nat.succ.inj hl)).bind fun vs rest => .pure (.cons fits rest)

end World

end HostExpr
