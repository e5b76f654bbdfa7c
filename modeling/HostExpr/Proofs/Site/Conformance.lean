import HostExpr.Member.Access

/-!
# Values that stand for a type

What a value satisfies, what can be coerced and what a conversion leaves alone are said by three functions. They
agree but for one kind of value: an instance of a host class that extends `Array` satisfies an array type with
items of a type, and the conversion to that type refuses it.
-/

namespace HostExpr

/-- The type of a value is of its class. -/
@[simp]
theorem Value.cls_runtimeType (v : Value) : v.runtimeType.cls = v.classRef := by
  cases v <;> rfl

namespace Classes

/-- An instance poses as an array if an array with items of a type is asked for and its class extends `Array`. -/
def posesAs (cs : Classes) : Value → Ty → Bool
  | .object _ c, .mk (.builtin .array) (_ :: _) => cs.isSubclass c (.builtin .array)
  | _, _ => false

/-- The first of some arguments that poses as an array for its parameter, with the parameter. -/
def firstPosing? (cs : Classes) (args : List Value) (params : List Ty) : Option (Value × Ty) :=
  (args.zip params).find? fun (arg, param) => cs.posesAs arg param

/-- The arguments fit the parameters as they are. -/
def satisfiesAll (cs : Classes) (args : List Value) (params : List Ty) : Bool :=
  (args.zip params).all fun (arg, param) => cs.satisfies arg param

/-- The class of a value that satisfies a type is a subclass of that of the type. -/
theorem isSubclass_of_satisfies {cs : Classes} {v : Value} {t : Ty} (h : cs.satisfies v t) :
    cs.isSubclass v.classRef t.cls := by
  unfold satisfies at h
  split at h
  · rename_i hv
    simp only [Bool.or_eq_true] at hv
    rcases hv with hd | hn
    · have : t.cls.isDynamic = true := hd
      simp [isSubclass, this]
    · have : v = .null := by simpa [Value.isNull] using hn
      simp [isSubclass, this, Value.classRef]
  · split at h
    · simp only [Bool.and_eq_true] at h
      have : t.cls = .builtin .array := by simpa [Ty.isArray] using h.1
      rw [this]
      simp [isSubclass, Value.classRef, lineage, Builtin.lineage]
    · exact h

/-- A value of any type can be stored as an object. -/
theorem assignable_object {cs : Classes} {as : List Ty} (t : Ty) :
    cs.assignable (.mk (.builtin .object) as) t := by
  cases t
  simp [assignable, ClassRef.isDynamic]

/-- Of the values of built-in kinds, only arrays are of a subclass of `Array`. -/
theorem not_isSubclass_array {cs : Classes} {b : Builtin} (hn : b ≠ .null) (ha : b ≠ .array) :
    cs.isSubclass (.builtin b) (.builtin .array) = false := by
  cases b <;> simp_all [isSubclass, ClassRef.isDynamic, lineage, Builtin.lineage]

end Classes

namespace World

variable {w : World}

/-- What comes of a conversion to a class: null and what is of a subclass are kept, and the conversion to the class has
made the rest. -/
theorem of_convert_ok {v r : Value} {c : ClassRef} {s s' : Store} (h : w.convert v c s = (.ok r, s')) :
    (w.classes.isSubclass v.classRef c ∧ r = v ∧ s' = s)
      ∨ ∃ converter, w.converter? c = some converter ∧ converter.accepts v.classRef
        ∧ runConverter converter c v s = (.ok r, s') := by
  unfold convert at h
  by_cases kept : v.isNull || w.classes.isSubclass v.classRef c
  · rw [if_pos kept] at h
    cases h
    refine .inl ⟨?_, rfl, rfl⟩
    obtain null | below := Bool.or_eq_true_iff.1 kept
    · -- null is below every class
      have : v = .null := by simpa [Value.isNull] using null
      simp [Classes.isSubclass, this, Value.classRef]
    · exact below
  · rw [if_neg kept] at h
    cases found : w.converter? c with
    | none =>
      rw [found] at h
      cases h
    | some converter =>
      rw [found] at h
      dsimp only at h
      by_cases accepted : converter.accepts v.classRef
      · rw [if_pos accepted] at h
        exact .inr ⟨converter, rfl, accepted, h⟩
      · rw [if_neg accepted] at h
        cases h

/-- A value that satisfies a type can be coerced to it. -/
theorem canCoerce_of_satisfies {v : Value} {t : Ty} (h : w.classes.satisfies v t) :
    w.canCoerce v.runtimeType t := by
  have sub := Classes.isSubclass_of_satisfies h
  simp [canCoerce, canConvert, sub]

/-- Conversion leaves a value that satisfies the type alone, unless the value only poses as an array. -/
theorem convertTo_of_satisfies {v : Value} {t : Ty} (h : w.classes.satisfies v t) :
    w.convertTo t v
      = if w.classes.posesAs v t then throw (cannotConvert w.classes v (t.text w.classes)) else return v := by
  unfold convertTo
  split
  · rename_i item rest
    cases v with
    | null => simp [Classes.posesAs]
    | array handle given =>
      have fits : w.classes.assignable item given := by
        obtain ⟨c, as⟩ := item
        have items : c = .builtin .object ∨ w.classes.assignable (.mk c as) given := by
          simpa [Classes.satisfies, Ty.isDynamic, Ty.cls, ClassRef.isDynamic, Value.isNull, Ty.isArray,
            Ty.itemType, Ty.args, Ty.argOr] using h
        rcases items with rfl | fits
        · exact Classes.assignable_object given
        · exact fits
      simp [fits, Classes.posesAs]
    | object handle c =>
      have sub : w.classes.isSubclass c (.builtin .array) := Classes.isSubclass_of_satisfies h
      simp [Classes.posesAs, sub]
    | _ =>
      -- no other value is of a subclass of `Array`
      have sub := Classes.isSubclass_of_satisfies h
      simp [Ty.cls, Value.classRef, Classes.not_isSubclass_array] at sub
  · rename_i hne
    have : w.classes.posesAs v t = false := by
      unfold Classes.posesAs
      split
      · exact absurd rfl (hne _ _)
      · rfl
    simp [h, this]

/-- Binding leaves arguments that satisfy their parameters alone, and fails at the first that poses as an array. -/
theorem bindArgs_of_satisfies {params : List Ty} {args : List Value} (hl : args.length = params.length)
    (h : w.classes.satisfiesAll args params) :
    w.bindArgs params args
      = match w.classes.firstPosing? args params with
        | some (arg, param) => throw (cannotConvert w.classes arg (param.text w.classes))
        | none => return args := by
  unfold bindArgs Classes.firstPosing?
  unfold Classes.satisfiesAll at h
  induction args generalizing params with
  | nil => simp
  | cons arg args ih =>
    cases params with
    | nil => simp at hl
    | cons param params =>
      simp only [List.zip_cons_cons, List.all_cons, Bool.and_eq_true] at h
      simp only [List.length_cons, Nat.add_right_cancel_iff] at hl
      -- an argument that fits is passed as it is, unless it poses as an array, where the first one is reported
      simp only [List.zip_cons_cons, List.mapM_cons, List.find?_cons, convertTo_of_satisfies h.1, ih hl h.2]
      cases w.classes.posesAs arg param with
      | true => rfl
      | false =>
        cases (args.zip params).find? fun (arg, param) => w.classes.posesAs arg param with
        | some stray => rfl
        | none => simp

end World

end HostExpr
