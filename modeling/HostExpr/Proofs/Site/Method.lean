import HostExpr.Proofs.Site.Run
import HostExpr.Proofs.Site.Selection

/-!
# Method sites

A specialized accessor to a method runs it at once if the arguments satisfy its parameters. Then the lookup selects
the same method, and binds the arguments as they are, unless one of them poses as an array: such a call strays from
the lookup, which refuses it. All other calls through a site are those of the lookup: `call_run_eq_direct`.
-/

namespace HostExpr

/-! ## The methods of receivers of one class -/

/-- What is visible of some methods is among them. -/
theorem mem_of_mem_visibleMethods {ms : List Method} {m : Method} (h : m ∈ visibleMethods ms) : m ∈ ms := by
  have seen : ∀ (ms seen : List Method),
      m ∈ ms.foldl (fun seen m => if seen.any (·.sameSignature m) then seen else seen ++ [m]) seen →
      m ∈ seen ∨ m ∈ ms := by
    intro ms
    induction ms with
    | nil =>
      intro seen h
      exact Or.inl h
    | cons n ms ih =>
      intro seen h
      rw [List.foldl_cons] at h
      rcases ih _ h with hs | hm
      · split at hs
        · exact Or.inl hs
        · rcases List.mem_append.1 hs with hs | hn
          · exact Or.inl hs
          · exact Or.inr (List.mem_singleton.1 hn ▸ List.mem_cons_self)
      · exact Or.inr (List.mem_cons_of_mem _ hm)
  rcases seen ms [] h with hn | hm
  · cases hn
  · exact hm

/-- The parameters of the methods that all objects have do not depend on the receiver. -/
theorem Builtin.params_of_mem_methods_object {m : Method} (h : m ∈ Builtin.methods .object) :
    m.params = [] ∨ m.params = [.raw (.builtin .object)] := by
  rcases List.mem_cons.1 h with rfl | h
  · exact Or.inl rfl
  · obtain rfl := List.mem_singleton.1 h
    exact Or.inr rfl

/-- The type of a value that is neither an array nor a class value says no more than its class. -/
theorem Value.runtimeType_eq_raw {v : Value} (ha : v.classRef ≠ .builtin .array) (hc : ∀ c, v ≠ .cls c) :
    v.runtimeType = .raw v.classRef := by
  cases v with
  | array handle item => exact absurd rfl ha
  | cls c => exact absurd rfl (hc c)
  | _ => rfl

namespace Classes

/-- The methods of arrays are those of all objects. -/
theorem mem_methods_array {cs : Classes} {name : String} {m : Method}
    (h : m ∈ cs.methods (.builtin .array) name) : m ∈ Builtin.methods .object :=
  (List.mem_filter.1 (mem_of_mem_visibleMethods h)).1

/-- All receivers of a class give a method the same parameter types. -/
theorem paramTypes_eq_of_classRef_eq {cs : Classes} {r r' : Value} {name : String} {m : Method}
    (hc : r'.classRef = r.classRef) (hr : ∀ c, r ≠ .cls c) (hr' : ∀ c, r' ≠ .cls c)
    (hm : m ∈ cs.methods r.classRef name) :
    cs.paramTypes r'.runtimeType m = cs.paramTypes r.runtimeType m := by
  by_cases ha : r.classRef = .builtin .array
  · -- arrays show the types of their items, but no parameter asks for it
    rw [ha] at hm
    rcases Builtin.params_of_mem_methods_object (mem_methods_array hm) with hp | hp
    · simp [paramTypes, hp]
    · simp [paramTypes, hp, resolve, TypeRef.raw, TypeRef.resolve, TypeRef.resolveAll]
  · rw [Value.runtimeType_eq_raw ha hr, Value.runtimeType_eq_raw (hc ▸ ha) hr', hc]

end Classes

namespace Accessor

/-- All receivers of a class are specialized to the same method. -/
theorem specializeMethod?_eq {cs : Classes} {r r' : Value} {name : String} {arity : Nat}
    (hc : r'.classRef = r.classRef) (hr : ∀ c, r ≠ .cls c) (hr' : ∀ c, r' ≠ .cls c) :
    specializeMethod? cs r' name arity = specializeMethod? cs r name arity := by
  unfold specializeMethod?
  rw [hc]
  split
  · rename_i m only
    have hm : m ∈ cs.methods r.classRef name := by
      have : m ∈ (cs.methods r.classRef name).filter (·.arity = arity) := by
        rw [only]
        exact List.mem_cons_self
      exact (List.mem_filter.1 this).1
    rw [Classes.paramTypes_eq_of_classRef_eq hc hr hr' hm]
  · rfl

/-- What is built to a member of a value that is no class value. -/
theorem specialize?_method {cs : Classes} {r : Value} (hr : ∀ c, r ≠ .cls c) (name : String) (arity : Nat) :
    specialize? cs r (.method name arity) = specializeMethod? cs r name arity := by
  unfold specialize?
  split
  · rename_i c
    exact absurd rfl (hr c)
  · rfl

/-- An accessor to a method is the one that would be built for any other receiver of the class. -/
theorem BuiltFor.eq_build {cs : Classes} {s : Strategy} {r : Value} {name : String} {arity : Nat} {a : Accessor}
    (h : BuiltFor cs s r.classRef (.method name arity) a) (hr : ∀ c, r ≠ .cls c) :
    a = .build cs s r (.method name arity) := by
  obtain ⟨r₀, hc, resolves, rfl⟩ := h
  have hr₀ : ∀ c, r₀ ≠ .cls c := by
    rcases resolves with hm | hr₀
    · cases hm
    · exact hr₀
  unfold build
  rw [specialize?_method hr, specialize?_method hr₀, specializeMethod?_eq hc hr hr₀]

end Accessor

/-! ## Calls -/

/-- A call with a number of arguments. -/
structure Call (arity : Nat) where
  receiver : Value
  args : List Value
  length_args : args.length = arity

namespace Call

variable {arity : Nat}

/-- The call by the lookup alone. -/
def lookup (w : World) (name : String) (a : Call arity) : Act Value := w.callMethod a.receiver name a.args

/-- The call through a site, and the site as the call leaves it. -/
def through (w : World) (default : Strategy) (site : Site) (a : Call arity) : Act Value × Site :=
  site.call w default a.receiver a.args

/-- The method, with its parameter types, that a specialized accessor runs without the lookup. -/
def fastPath? (w : World) (name : String) (a : Call arity) : Option (Method × List Ty) :=
  if a.receiver.isNull then none
  else
    match Accessor.specialize? w.classes a.receiver (.method name arity) with
    | some (.method m params) => if w.classes.satisfiesAll a.args params then some (m, params) else none
    | _ => none

/-- The argument on which a specialized accessor strays from the lookup, with its parameter type. -/
def stray? (w : World) (name : String) (a : Call arity) : Option (Value × Ty) :=
  (a.fastPath? w name).bind fun (_, params) => w.classes.firstPosing? a.args params

variable {w : World} {name : String} {a : Call arity} {m : Method} {params : List Ty}

/-- The method that is run without the lookup is the only one of the receiver's class for the number of
arguments, and they satisfy its parameters. -/
theorem of_fastPath? (h : a.fastPath? w name = some (m, params)) :
    a.receiver ≠ .null ∧ (∀ c, a.receiver ≠ .cls c)
      ∧ (w.classes.methods a.receiver.classRef name).filter (·.arity = a.args.length) = [m]
      ∧ params = w.classes.paramTypes a.receiver.runtimeType m
      ∧ w.classes.satisfiesAll a.args params := by
  unfold fastPath? at h
  split at h
  · cases h
  · rename_i hn
    split at h
    · rename_i m' params' hs
      split at h
      · rename_i fit
        cases h
        have hc : ∀ c, a.receiver ≠ .cls c := by
          intro c hc
          simp [hc, Accessor.specialize?] at hs
        -- the methods of a receiver that is no class are those of its class
        rw [Accessor.specialize?_method hc] at hs
        unfold Accessor.specializeMethod? at hs
        split at hs
        · rename_i m' only
          cases hs
          rw [a.length_args]
          exact ⟨by simpa [Value.isNull] using hn, hc, only, rfl, fit⟩
        · cases hs
      · cases h
    · cases h

/-- The lookup selects the method that a specialized accessor runs. -/
theorem select?_of_fastPath? (h : a.fastPath? w name = some (m, params)) :
    w.select? (w.classes.methods a.receiver.classRef name) a.receiver.runtimeType a.args = some (m, params) := by
  obtain ⟨-, -, only, rfl, fit⟩ := of_fastPath? h
  exact World.select?_eq_of_unique only fit

/-- The lookup runs the method that a specialized accessor runs, on the same arguments, unless the call strays. -/
theorem lookup_of_fastPath? (h : a.fastPath? w name = some (m, params)) :
    a.lookup w name
      = match w.classes.firstPosing? a.args params with
        | some (arg, param) => throw (cannotConvert w.classes arg (param.text w.classes))
        | none => w.invoke m.code a.receiver a.args := by
  obtain ⟨hn, hc, only, hp, fit⟩ := of_fastPath? h
  have dispatched : a.lookup w name = w.callMember a.receiver name a.args := by
    unfold lookup World.callMethod
    split
    · rename_i hr
      exact absurd hr hn
    · rename_i c hr
      exact absurd hr (hc c)
    · rfl
  have called : w.callMember a.receiver name a.args
      = (do w.invoke m.code a.receiver (← w.bindArgs params a.args)) := by
    unfold World.callMember
    split
    · rename_i hm
      simp [hm] at only
    · unfold World.callOverloaded
      rw [select?_of_fastPath? h]
  -- the only method was looked for by the number of arguments
  have hl : a.args.length = params.length := by
    have : m ∈ (w.classes.methods a.receiver.classRef name).filter (·.arity = a.args.length) := by
      rw [only]
      exact List.mem_cons_self
    have arity_eq : m.arity = a.args.length := by simpa using (List.mem_filter.1 this).2
    rw [hp, ← arity_eq]
    simp [Classes.paramTypes, Method.arity]
  rw [dispatched, called, World.bindArgs_of_satisfies hl fit]
  cases w.classes.firstPosing? a.args params with
  | some stray => rfl
  | none => simp

/-- What a specialized accessor does with a call. -/
theorem call_build_specialized (hn : a.receiver ≠ .null) :
    (Accessor.build w.classes .specialized a.receiver (.method name arity)).call w name a.receiver a.args
      = match a.fastPath? w name with
        | some (m, _) => w.invoke m.code a.receiver a.args
        | none => a.lookup w name := by
  have hn' : a.receiver.isNull = false := by simpa [Value.isNull] using hn
  simp only [fastPath?, hn', Bool.false_eq_true, if_false, Accessor.build]
  cases Accessor.specialize? w.classes a.receiver (.method name arity) with
  | none => rfl
  | some accessor =>
    cases accessor with
    | method m params =>
      have call_eq : (Accessor.method m params).call w name a.receiver a.args
          = if w.classes.satisfiesAll a.args params then w.invoke m.code a.receiver a.args
            else w.callMethod a.receiver name a.args := rfl
      simp only [Option.getD_some, call_eq]
      -- the accessor checks the classes itself; if they do not fit, it looks the call up
      by_cases fit : w.classes.satisfiesAll a.args params
      · simp only [fit, if_true]
      · simp only [fit, Bool.false_eq_true, if_false]
        rfl
    | _ => rfl

/-- A call that does not stray is that of the lookup, through what either strategy builds. -/
theorem call_build_eq_lookup (hn : a.receiver ≠ .null) (hs : a.stray? w name = none) (s : Strategy) :
    (Accessor.build w.classes s a.receiver (.method name arity)).call w name a.receiver a.args
      = a.lookup w name := by
  cases s with
  | universal => rfl
  | specialized =>
    rw [call_build_specialized hn]
    cases hf : a.fastPath? w name with
    | none => rfl
    | some fast =>
      have fits : w.classes.firstPosing? a.args fast.2 = none := by simpa [stray?, hf] using hs
      rw [lookup_of_fastPath? hf, fits]

end Call

/-! ## Calls through a site -/

namespace Site

variable {w : World} {site : Site} {name : String} {arity : Nat}

/-- A call through a site, on a receiver that has instance members, is one through the accessor that the site's
strategy builds for the receiver. -/
theorem Bound.call_eq (h : site.Bound w.classes (.method name arity)) (default : Strategy) {a : Call arity}
    (hn : a.receiver ≠ .null) (hc : ∀ c, a.receiver ≠ .cls c) :
    (a.through w default site).1
      = (Accessor.build w.classes (site.strategyUnder default) a.receiver (.method name arity)).call
          w name a.receiver a.args := by
  have hm : site.member.name = name := by rw [h.member_eq]; rfl
  unfold Call.through Site.call Site.access
  rw [hm]
  split
  · rename_i hr
    exact absurd hr hn
  · rename_i c hr
    exact absurd hr (hc c)
  · rw [← (h.resolve_builtFor default (.inr hc)).eq_build hc]

/-- A call through a site that does not stray is that of the lookup. -/
theorem Bound.call_eq_lookup (h : site.Bound w.classes (.method name arity)) (default : Strategy)
    {a : Call arity} (hs : a.stray? w name = none) : (a.through w default site).1 = a.lookup w name := by
  have hm : site.member.name = name := by rw [h.member_eq]; rfl
  by_cases hn : a.receiver = .null
  · simp [Call.through, Call.lookup, Site.call, Site.access, World.callMethod, hn, hm]
  · by_cases hc : ∃ c, a.receiver = .cls c
    · obtain ⟨c, hc⟩ := hc
      simp [Call.through, Call.lookup, Site.call, Site.access, hc, hm]
    · have hc' : ∀ c, a.receiver ≠ .cls c := fun c hr => hc ⟨c, hr⟩
      rw [h.call_eq default hn hc', Call.call_build_eq_lookup hn hs]

/-- A call keeps the site bound as it should be. -/
theorem Bound.call (h : site.Bound w.classes (.method name arity)) (default : Strategy) (a : Call arity) :
    (a.through w default site).2.Bound w.classes (.method name arity) :=
  h.access default a.receiver _ _

/-- **Calls through a method site.** In a run without stray calls every call gives what the lookup gives and leaves
the same store. Where the site's strategy is specialized and the arguments satisfy the parameters, the site runs the
method that the lookup selects; the lookup runs it on the same arguments, except that it refuses an argument that
poses as an array. -/
theorem call_run_eq_direct (w : World) (name : String) (arity : Nat) (preferred : Option Strategy)
    (default : Strategy) (store : Store) (steps : List (Step (Call arity))) :
    ((∀ a, .access a ∈ steps → a.stray? w name = none) →
      run (Call.through w) default (.fresh (.method name arity) preferred) store steps
        = Step.direct (Call.lookup w name) store steps)
    ∧ ∀ (a : Call arity) (m : Method) (params : List Ty), a.fastPath? w name = some (m, params) →
      let (default, site) := after (Call.through w) default (.fresh (.method name arity) preferred) steps
      (a.through w default site).1
        = (match site.strategyUnder default with
          | .specialized => w.invoke m.code a.receiver a.args
          | .universal => a.lookup w name)
      ∧ w.select? (w.classes.methods a.receiver.classRef name) a.receiver.runtimeType a.args = some (m, params)
      ∧ a.lookup w name
        = match w.classes.firstPosing? a.args params with
          | some (arg, param) => throw (cannotConvert w.classes arg (param.text w.classes))
          | none => w.invoke m.code a.receiver a.args := by
  have fresh := Bound.fresh w.classes (.method name arity) preferred
  -- an access leaves the site bound, and that is all that the next one needs
  have keeps : ∀ default site (a : Call arity), site.Bound w.classes (.method name arity) →
      (a.through w default site).2.Bound w.classes (.method name arity) :=
    fun default site a h => h.call default a
  constructor
  · intro straight
    refine run_eq_direct keeps steps ?_ fresh store
    intro default site a ha h
    exact h.call_eq_lookup default (straight a ha)
  · intro a m params hf
    obtain ⟨hn, hc, -⟩ := Call.of_fastPath? hf
    have bound : (after (Call.through w) default (.fresh (.method name arity) preferred) steps).2.Bound
        w.classes (.method name arity) := after_invariant keeps steps fresh
    refine ⟨?_, Call.select?_of_fastPath? hf, Call.lookup_of_fastPath? hf⟩
    rw [bound.call_eq _ hn hc]
    split
    · rename_i hs
      rw [hs, Call.call_build_specialized hn, hf]
    · rename_i hs
      rw [hs]
      rfl

/-! ## A host whose instances pose as arrays -/

/-- The method of the boxes below: it takes an array of integers. -/
def takeIntegers : Method where
  name := "take"
  params := [.ofTy (.arrayOf .integer)]
  result := .raw (.builtin .integer)
  declaring := "Box"
  code := .host 0

/-- A host with a class of rows, which extends `Array`, and a class of boxes. -/
def rowsAndBoxes : World where
  classes := ⟨[.bare "Row" none (some (.builtin .array)),
    { ClassDef.bare "Box" none (some (.builtin .object)) with methods := [takeIntegers] }]⟩
  functions := []
  native _ _ _ := return .int 1
  handlers := []

/-- A box is asked to take something. -/
def boxTakes (arg : Value) : Call 1 := ⟨.object 0 (.host 1), [arg], rfl⟩

/-- A row: an instance of a class that extends `Array`. -/
def aRow : Value := .object 1 (.host 0)

/-- A box takes an array and refuses a number, through a site as without one. It takes a row through a specialized
site only. -/
theorem call_run_eq_direct_rowsAndBoxes :
    run (Call.through rowsAndBoxes) .specialized (.fresh (.method "take" 1) none) (.ofHeap .empty)
        [.access (boxTakes (.array 0 .integer)), .access (boxTakes (.int 3))]
      = Step.direct (Call.lookup rowsAndBoxes "take") (.ofHeap .empty)
        [.access (boxTakes (.array 0 .integer)), .access (boxTakes (.int 3))]
    ∧ ((boxTakes aRow).through rowsAndBoxes .specialized (.fresh (.method "take" 1) none)).1
      = rowsAndBoxes.invoke (.host 0) (boxTakes aRow).receiver [aRow]
    ∧ (boxTakes aRow).lookup rowsAndBoxes "take" = throw (.conversion ⟨"Row", "Integer[]", none⟩) := by
  constructor
  · refine (call_run_eq_direct rowsAndBoxes "take" 1 none .specialized (.ofHeap .empty) _).1 ?_
    intro a ha
    simp only [List.mem_cons, Step.access.injEq, List.not_mem_nil, or_false] at ha
    rcases ha with rfl | rfl <;> decide
  · have fast : (boxTakes aRow).fastPath? rowsAndBoxes "take" = some (takeIntegers, [.arrayOf .integer]) := by
      rfl
    obtain ⟨through_eq, -, lookup_eq⟩ :=
      (call_run_eq_direct rowsAndBoxes "take" 1 none .specialized (.ofHeap .empty) []).2 _ _ _ fast
    exact ⟨through_eq, lookup_eq⟩

end Site

end HostExpr
