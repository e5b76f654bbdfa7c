import HostExpr.Proofs.Call.Failure
import HostExpr.Proofs.Execution.Steps
import HostExpr.Proofs.Site.Selection
import HostExpr.Proofs.Type.Order

/-!
# Values that are taken as they are

Whether a value can be stored where a type is expected is asked of the value itself, where a specialized accessor or a
conversion looks at it, and of its type, where an overload is selected. The two answers agree but for the type arguments
of arrays and of classes: an array of any objects is of a type that every array type accepts, and a class shows its
argument in its type only. `satisfies_iff_assignable` says which values are concerned.
-/

namespace HostExpr

open Act

/-! ## One value -/

/-- The type accepts that of the value, and the value does not satisfy it: an array of any objects where an array with
items of one type is asked for. -/
def Value.onlyAssignable : Value → Ty → Bool
  | .array _ item, .mk (.builtin .array) [want] => item.isDynamic && !want.isDynamic
  | _, _ => false

namespace Classes

variable {cs : Classes} {v : Value}

/-- The value satisfies the type, which does not accept that of the value: arrays have one type argument, and of a class
the argument is not looked at. -/
def onlySatisfies (cs : Classes) : Value → Ty → Bool
  | .array _ item, .mk (.builtin .array) (want :: _ :: _) => cs.assignable want item
  | .cls c, .mk (.builtin .cls) (want :: wants) => !cs.argsAssignable false (want :: wants) [.raw c]
  | _, _ => false

/-- What a type accepts. -/
theorem assignable_mk {c d : ClassRef} {as bs : List Ty} : cs.assignable (.mk c as) (.mk d bs) ↔
    cs.isSubclass d c
      ∧ (c.isDynamic ∨ d = .builtin .null ∨ as = [] ∨ bs = [] ∨ c ≠ d ∨ cs.argsAssignable (c = .builtin .array) as bs) := by
  by_cases top : c.isDynamic
  · simp [assignable, isSubclass, top]
  · by_cases null : d = .builtin .null
    · simp [assignable, isSubclass, null]
    · simp [assignable, top, null, or_assoc]

/-- A type accepts what has no type arguments just if it is of a subclass. -/
theorem assignable_raw {t : Ty} {c : ClassRef} : cs.assignable t (.raw c) ↔ cs.isSubclass c t.cls := by
  obtain ⟨d, as⟩ := t
  exact assignable_mk.trans (by simp [Ty.cls])

/-- A built-in class has no superclass but `Object`. -/
theorem isSubclass_builtin {b : Builtin} (known : b ≠ .null) {c : ClassRef} :
    cs.isSubclass (.builtin b) c ↔ c.isDynamic ∨ c = .builtin b := by
  have above : c ∈ cs.lineage (.builtin b) ↔ c = .builtin b ∨ c = .builtin .object := by
    cases b with
    | null => exact absurd rfl known
    | _ => simp [lineage, Builtin.lineage]
  have top : c.isDynamic ↔ c = .builtin .object := by simp [ClassRef.isDynamic]
  have apart : ClassRef.builtin b ≠ .builtin .null := fun same => known (ClassRef.builtin.inj same)
  rw [isSubclass_iff, above, top]
  grind

/-- `Object` accepts everything. -/
theorem assignable_of_top {want item : Ty} (top : want.isDynamic) : cs.assignable want item := by
  obtain ⟨c, as⟩ := want
  obtain rfl : c = .builtin .object := of_decide_eq_true top
  exact assignable_object item

/-- Objects of any class are accepted by no type but `Object`. -/
theorem assignable_of_isDynamic {want item : Ty} (any : item.isDynamic) : cs.assignable want item ↔ want.isDynamic := by
  obtain ⟨c, as⟩ := want
  obtain ⟨d, bs⟩ := item
  obtain rfl : d = .builtin .object := of_decide_eq_true any
  have sub : cs.isSubclass (.builtin .object) c ↔ c.isDynamic := by
    simp [isSubclass_builtin, ClassRef.isDynamic]
  rw [assignable_mk, sub]
  exact ⟨fun h => h.1, fun top => ⟨top, .inl top⟩⟩

/-- Which types an array satisfies. -/
theorem satisfies_array_iff {h : Handle} {item : Ty} {c : ClassRef} {as : List Ty} :
    cs.satisfies (.array h item) (.mk c as) ↔
      c.isDynamic ∨ c = .builtin .array ∧ (as = [] ∨ ∃ want rest, as = want :: rest ∧ cs.assignable want item) := by
  by_cases top : c.isDynamic
  · simp [satisfies, Ty.isDynamic, Ty.cls, top]
  · by_cases array : c = .builtin .array
    · subst array
      cases as with
      | nil => simp [satisfies, Ty.isArray, Ty.cls, Ty.args]
      | cons want rest =>
        simp [satisfies, Ty.isDynamic, Ty.isArray, Ty.cls, Ty.args, Value.isNull, Ty.itemType, Ty.argOr, top]
        exact assignable_of_top
    · simp [satisfies, Ty.isDynamic, Ty.isArray, Ty.cls, Value.isNull, top, array]

/-- Which types accept that of an array. -/
theorem assignable_array_iff {item : Ty} {c : ClassRef} {as : List Ty} :
    cs.assignable (.mk c as) (.arrayOf item) ↔
      c.isDynamic ∨ c = .builtin .array
        ∧ (as = [] ∨ ∃ want, as = [want] ∧ (item.isDynamic ∨ cs.assignable want item)) := by
  -- arrays take one type argument, and any other number of them fits no array
  have args : cs.argsAssignable true as [item] ↔ ∃ want, as = [want] ∧ (item.isDynamic ∨ cs.assignable want item) := by
    obtain _ | ⟨want, _ | ⟨other, rest⟩⟩ := as
    · simp [argsAssignable]
    · have same (h : want = item) : cs.assignable want item := h ▸ cs.assignable_refl want
      have top : want.isDynamic → cs.assignable want item := assignable_of_top
      simp only [argsAssignable]
      grind
    · simp [argsAssignable]
  unfold Ty.arrayOf
  rw [assignable_mk, isSubclass_builtin (by simp)]
  by_cases top : c.isDynamic
  · simp [top]
  · by_cases array : c = .builtin .array
    · simp [array, args]
    · simp [top, array]

/-- Of all other values the class is looked at. -/
theorem satisfies_iff_isSubclass {t : Ty} (other : ∀ h item, v ≠ .array h item) :
    cs.satisfies v t ↔ cs.isSubclass v.classRef t.cls := by
  refine ⟨isSubclass_of_satisfies, fun h => ?_⟩
  unfold satisfies
  split
  · rfl
  · split
    · exact absurd rfl (other _ _)
    · exact h

/-- Which types accept that of a class. -/
theorem assignable_classOf {c : ClassRef} {d : ClassRef} {as : List Ty} : cs.assignable (.mk d as) (.classOf c) ↔
    cs.isSubclass (.builtin .cls) d ∧ (d = .builtin .cls → as = [] ∨ cs.argsAssignable false as [.raw c]) := by
  unfold Ty.classOf
  rw [assignable_mk, isSubclass_builtin (by simp)]
  by_cases top : d.isDynamic
  · have apart : d ≠ .builtin .cls := by
      rintro rfl
      cases top
    simp [top, apart]
  · by_cases cls : d = .builtin .cls
    · simp [cls, ClassRef.isDynamic]
    · simp [top, cls]

/-- The values that are only of an accepted type. -/
theorem onlyAssignable_iff {t : Ty} : v.onlyAssignable t ↔ cs.assignable t v.runtimeType ∧ ¬ cs.satisfies v t := by
  obtain ⟨d, as⟩ := t
  -- only arrays and classes show a type with arguments, so that only for them the two questions can differ
  cases v with
  | array h item =>
    have shown : (Value.array h item).runtimeType = .arrayOf item := rfl
    rw [satisfies_array_iff, shown, assignable_array_iff]
    by_cases array : d = .builtin .array
    · subst array
      have any (want : Ty) : item.isDynamic → (cs.assignable want item ↔ want.isDynamic) := assignable_of_isDynamic
      obtain _ | ⟨want, _ | ⟨other, rest⟩⟩ := as
      · simp [Value.onlyAssignable]
      · simp [Value.onlyAssignable, ClassRef.isDynamic]
        grind
      · simp [Value.onlyAssignable, ClassRef.isDynamic]
    · simp [Value.onlyAssignable, array]
  | cls c =>
    have shown : (Value.cls c).runtimeType = .classOf c := rfl
    have plain : cs.satisfies (.cls c) (.mk d as) ↔ cs.isSubclass (Value.cls c).classRef d :=
      satisfies_iff_isSubclass fun _ _ same => by cases same
    rw [plain, shown, assignable_classOf]
    simp [Value.onlyAssignable, Value.classRef]
    grind
  | _ =>
    rw [satisfies_iff_isSubclass]
    · simp [Value.onlyAssignable, Value.runtimeType, assignable_raw]
    · intro _ _ same
      cases same

/-- The values that only satisfy a type. -/
theorem onlySatisfies_iff {t : Ty} : cs.onlySatisfies v t ↔ cs.satisfies v t ∧ ¬ cs.assignable t v.runtimeType := by
  obtain ⟨d, as⟩ := t
  -- as before, only arrays and classes can tell the two questions apart
  cases v with
  | array h item =>
    have shown : (Value.array h item).runtimeType = .arrayOf item := rfl
    rw [satisfies_array_iff, shown, assignable_array_iff]
    by_cases array : d = .builtin .array
    · subst array
      obtain _ | ⟨want, _ | ⟨other, rest⟩⟩ := as
      · simp [onlySatisfies]
      · simp [onlySatisfies, ClassRef.isDynamic]
        grind
      · simp [onlySatisfies, ClassRef.isDynamic]
    · simp [onlySatisfies, array]
  | cls c =>
    have shown : (Value.cls c).runtimeType = .classOf c := rfl
    have plain : cs.satisfies (.cls c) (.mk d as) ↔ cs.isSubclass (Value.cls c).classRef d :=
      satisfies_iff_isSubclass fun _ _ same => by cases same
    rw [plain, shown, assignable_classOf]
    by_cases cls : d = .builtin .cls
    · subst cls
      cases as with
      | nil => simp [onlySatisfies, Value.classRef]
      | cons want wants => simp [onlySatisfies, Value.classRef, isSubclass_refl]
    · simp [onlySatisfies, cls, Value.classRef]
  | _ =>
    rw [satisfies_iff_isSubclass]
    · simp [onlySatisfies, Value.runtimeType, assignable_raw]
    · intro _ _ same
      cases same

end Classes

/-! ## Conversion -/

namespace World

variable {w : World} {v r : Value} {t item : Ty} {s s' : Store}

/-- What the items of a container are converted to is an array with items of the type. -/
theorem eq_array_of_newArray (items : Act (List Value))
    (h : (do newArray item (← items) : Act Value) s = (.ok r, s')) : ∃ k, r = .array k item := by
  obtain ⟨fitted, s₁, -, made⟩ := of_bind_ok h
  cases made
  exact ⟨_, rfl⟩

/-- A conversion that is run leaves a trace. -/
theorem runConverter_ne_self {c : Converter} {target : ClassRef} (quiet : Quiet (c.run v)) :
    runConverter c target v s ≠ (.ok r, s) := by
  intro h
  have silent := (quiet s).1
  have longer : (runConverter c target v s).2.trace.length = s.trace.length + 1 := by
    unfold runConverter at h ⊢
    split at h
    · simp_all
    · cases h
    · cases h
  rw [h] at longer
  exact absurd longer (Nat.ne_of_lt (Nat.lt_succ_self _))

/-- A conversion leaves the value and everything else as it is just if the value satisfies the type and does not pose
as an array. -/
theorem convertTo_eq_self_iff : w.convertTo t v s = (.ok v, s) ↔ w.classes.satisfies v t ∧ ¬ w.classes.posesAs v t := by
  by_cases fits : w.classes.satisfies v t
  · rw [convertTo_of_satisfies fits]
    by_cases poses : w.classes.posesAs v t
    · rw [if_pos poses]
      exact iff_of_false nofun fun h => h.2 poses
    · rw [if_neg poses]
      exact iff_of_true rfl ⟨fits, poses⟩
  · refine iff_of_false (fun h => ?_) fun h => fits h.1
    unfold convertTo at h
    split at h
    · rename_i item rest
      dsimp only at h
      split at h
      · rename_i k given
        split at h
        · rename_i kept
          exact fits (Classes.satisfies_array _ kept)
        · -- a new array holds items of just the wanted type, so that the old one, if it were the same, would fit
          rename_i unfit
          obtain ⟨_, made⟩ := eq_array_of_newArray (do (← Act.items k).mapM (w.convertTo item)) h
          obtain ⟨-, rfl⟩ := Value.array.inj made
          exact unfit (w.classes.assignable_refl _)
      · rename_i k
        obtain ⟨_, made⟩ := eq_array_of_newArray (do (← Act.items k).mapM (w.convertTo item)) h
        cases made
      · exact fits (by simp [Classes.satisfies, Value.isNull])
      · cases h
    · rename_i other
      rw [if_neg fits] at h
      obtain ⟨below, -⟩ | ⟨converter, found, -, run⟩ := of_convert_ok h
      · exact fits (w.classes.satisfies_of_isSubclass other below)
      · exact runConverter_ne_self (w.quiet_converter found v) run

end World

/-! ## Arguments -/

namespace Classes

variable {cs : Classes}

/-- An argument is treated alike by the selection of overloads and by specialized accessors: it does not only satisfy its
parameter, is not only of an accepted type, and is not a plain object, whose type tells the selection nothing. -/
structure TakesAlike (cs : Classes) (arg : Value) (param : Ty) : Prop where
  assigned : ¬ arg.onlyAssignable param
  satisfied : ¬ cs.onlySatisfies arg param
  known : ¬ arg.runtimeType.isDynamic

theorem TakesAlike.iff {arg : Value} {param : Ty} (alike : cs.TakesAlike arg param) :
    (cs.assignable param arg.runtimeType || arg.runtimeType.isDynamic) = cs.satisfies arg param := by
  have assigned : ¬ (cs.assignable param arg.runtimeType ∧ ¬ cs.satisfies arg param) :=
    mt onlyAssignable_iff.2 alike.assigned
  have satisfied := mt onlySatisfies_iff.2 alike.satisfied
  rw [Bool.eq_false_iff.2 alike.known, Bool.or_false, Bool.eq_iff_iff]
  grind

/-- Rows of such arguments are taken as they are by both or by neither. -/
theorem acceptsAll_eq_satisfiesAll {args : List Value} {params : List Ty}
    (alike : ∀ pair ∈ args.zip params, cs.TakesAlike pair.1 pair.2) :
    Overload.acceptsAll (fun param arg => cs.assignable param arg || arg.isDynamic) params (args.map Value.runtimeType)
      = cs.satisfiesAll args params := by
  unfold Overload.acceptsAll satisfiesAll
  induction args generalizing params with
  | nil => simp
  | cons arg args ih =>
    cases params with
    | nil => rfl
    | cons param params =>
      obtain ⟨first, rest⟩ := List.forall_mem_cons.1 alike
      simp only [List.map_cons, List.zip_cons_cons, List.all_cons, first.iff, ih rest]

end Classes

/-- **Values and their types conform alike, but for type arguments.** A value satisfies a type just if the type accepts
that of the value, except that arrays of any objects are only of a type that other array types accept, and that array
types with several arguments and types of other classes are only satisfied. A conversion leaves just those values as they
are that satisfy the type and do not pose as an array; and the selection of overloads takes a row of arguments as they
are just if a specialized accessor does, where there are no such exceptions. -/
theorem World.satisfies_iff_assignable (w : World) :
    (∀ v t, v.onlyAssignable t ↔ w.classes.assignable t v.runtimeType ∧ ¬ w.classes.satisfies v t)
    ∧ (∀ v t, w.classes.onlySatisfies v t ↔ w.classes.satisfies v t ∧ ¬ w.classes.assignable t v.runtimeType)
    ∧ (∀ t v s, w.convertTo t v s = (.ok v, s) ↔ w.classes.satisfies v t ∧ ¬ w.classes.posesAs v t)
    ∧ ∀ (args : List Value) (params : List Ty), (∀ pair ∈ args.zip params, w.classes.TakesAlike pair.1 pair.2) →
      Overload.acceptsAll (fun param arg => w.classes.assignable param arg || arg.isDynamic) params
          (args.map Value.runtimeType)
        = w.classes.satisfiesAll args params :=
  ⟨fun _ _ => Classes.onlyAssignable_iff, fun _ _ => Classes.onlySatisfies_iff, fun _ _ _ => convertTo_eq_self_iff,
    fun _ _ alike => Classes.acceptsAll_eq_satisfiesAll alike⟩

/-- An array of numbers, null and a class are taken as they are where their own types are expected. -/
theorem World.satisfies_iff_assignable_row :
    let args : List Value := [.array 0 .integer, .null, .cls (.builtin .string)]
    let params : List Ty := [.arrayOf .integer, .string, .classOf (.builtin .string)]
    (∀ pair ∈ args.zip params, World.bare.classes.TakesAlike pair.1 pair.2)
      ∧ World.bare.classes.satisfiesAll args params
      ∧ Overload.acceptsAll (fun param arg => World.bare.classes.assignable param arg || arg.isDynamic) params
        (args.map Value.runtimeType) := by
  intro args params
  have alike : ∀ pair ∈ args.zip params, World.bare.classes.TakesAlike pair.1 pair.2 := by
    intro pair mem
    obtain rfl | rfl | rfl := by simpa [args, params] using mem
    all_goals exact ⟨by decide, by decide, by decide⟩
  have satisfied : World.bare.classes.satisfiesAll args params := by decide
  refine ⟨alike, satisfied, ?_⟩
  rw [(World.bare.satisfies_iff_assignable).2.2.2 args params alike]
  exact satisfied

/-- Arrays of numbers accept the type of an array of any objects, which does not satisfy theirs; and the class of texts
satisfies the type of the class of numbers, which does not accept its type. -/
theorem World.satisfies_ne_assignable :
    let objects : Value := .array 0 .object
    let numbers : Ty := .arrayOf .integer
    let texts : Value := .cls (.builtin .string)
    let number : Ty := .classOf (.builtin .integer)
    (World.bare.classes.assignable numbers objects.runtimeType ∧ ¬ World.bare.classes.satisfies objects numbers)
      ∧ World.bare.classes.satisfies texts number ∧ ¬ World.bare.classes.assignable number texts.runtimeType := by
  decide

end HostExpr
