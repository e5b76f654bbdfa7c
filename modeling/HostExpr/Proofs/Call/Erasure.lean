import HostExpr.Proofs.Call.Alike
import HostExpr.Proofs.Call.Value
import HostExpr.Proofs.Engine.Calls
import HostExpr.Proofs.Execution.Steps
import HostExpr.Proofs.Scope.Agreement
import HostExpr.Proofs.Type.Order
import HostExpr.Proofs.Typing.Ruled
import HostExpr.Proofs.Typing.Parts

/-!
# Calls as analysis resolves them

An analysis chooses among overloads by static types, with their type arguments; a run chooses by what values show, which
is hardly more than their classes. Where a call is resolved to one method, the run calls this method and converts the
arguments to the parameter types that analysis saw, as long as the missing type arguments make no difference:
`call_eq_of_resolves`. A method that is the only one for its number of arguments needs this for the conversions only.
-/

namespace HostExpr

open Typed

/-! ## What type arguments make a difference for -/

namespace Classes

variable (cs : Classes)

/-- A conversion to the type leaves the value as it is. -/
def keeps (v : Value) (t : Ty) : Bool := cs.satisfies v t && !cs.posesAs v t

/-- Parameter types that are seen in two ways are the same, or the argument needs no conversion either way. -/
def BoundAlike (args : List Value) (params params' : List Ty) : Prop :=
  ∀ (k : Nat) v p p', args[k]? = some v → params[k]? = some p → params'[k]? = some p' →
    p' = p ∨ cs.keeps v p ∧ cs.keeps v p'

/-- Parameters accept arguments by what they show as they accept them by their static types. -/
def ToldAlike (types : List Ty) (args : List Value) (params : List Ty) : Prop :=
  ∀ (k : Nat) p t v, params[k]? = some p → types[k]? = some t → args[k]? = some v →
    cs.assignable p v.runtimeType = cs.assignable p t

/-- The choice among candidates is the same seen from two owners, by static types and by what the arguments show: only
one of them takes as many arguments, or all that do have the same parameter types either way, and these accept the same
arguments. -/
def ChosenAlike (candidates : List Method) (owner shown : Ty) (types : List Ty) (args : List Value) : Prop :=
  (∃ m, candidates.filter (·.arity = args.length) = [m]) ∨
    ∀ c ∈ candidates, c.arity = args.length →
      cs.paramTypes shown c = cs.paramTypes owner c ∧ cs.ToldAlike types args (cs.paramTypes owner c)

variable {cs}

theorem length_paramTypes (owner : Ty) (m : Method) : (cs.paramTypes owner m).length = m.arity := by
  rw [paramTypes, List.length_map, Method.arity]

/-- Parameters that are the same either way bind all arguments alike. -/
theorem BoundAlike.refl (args : List Value) (params : List Ty) : cs.BoundAlike args params params := by
  intro k v p p' _ hp hp'
  rw [hp] at hp'
  exact Or.inl (Option.some.inj hp').symm

end Classes

namespace World

variable {w : World} {candidates : List Method} {owner shown : Ty} {types : List Ty} {args : List Value} {m : Method}

/-- A value that conversions to two types leave as it is, or two types that are the same, make no difference. -/
theorem convertTo_eq_of_keeps {v : Value} {t : Ty} (h : w.classes.keeps v t) : w.convertTo t v = return v := by
  obtain ⟨fits, plain⟩ := Bool.and_eq_true_iff.1 h
  have plain : w.classes.posesAs v t = false := by simpa using plain
  rw [convertTo_of_satisfies fits, plain]
  rfl

/-- Arguments that are bound alike are converted alike. -/
theorem bindArgs_congr {params params' : List Ty} (hl : params'.length = params.length)
    (h : w.classes.BoundAlike args params params') : w.bindArgs params' args = w.bindArgs params args := by
  unfold bindArgs
  induction args generalizing params params' with
  | nil => rfl
  | cons v args ih =>
    match params, params', hl with
    | [], [], _ => rfl
    | p :: params, p' :: params', hl =>
      have rest := ih (Nat.succ.inj hl) fun k u q q' hu hq hq' => h (k + 1) u q q' hu hq hq'
      have first : w.convertTo p' v = w.convertTo p v := by
        rcases h 0 v p p' rfl rfl rfl with rfl | ⟨kept, kept'⟩
        · rfl
        · rw [convertTo_eq_of_keeps kept, convertTo_eq_of_keeps kept']
      simp only [List.zip_cons_cons, List.mapM_cons, first, rest]

/-- What can be coerced is a matter of assignability and of classes. -/
theorem canCoerce_congr {t t' p : Ty} (hc : t'.cls = t.cls)
    (ha : w.classes.assignable p t' = w.classes.assignable p t) : w.canCoerce t' p = w.canCoerce t p := by
  unfold canCoerce
  rw [ha, hc]

/-- A parameter that accepts the static type of an argument accepts the argument, as far as classes go. -/
theorem accepts_runtimeType {v : Value} {t p : Ty} (hc : v.classRef = t.cls)
    (h : Overload.accepts w.classes w.canCoerce p t) : Overload.accepts w.classes w.canCoerce p v.runtimeType := by
  have same : v.runtimeType.cls = t.cls := by rw [Value.cls_runtimeType, hc]
  unfold Overload.accepts at h ⊢
  rcases Bool.or_eq_true_iff.1 h with h | h
  · rcases Bool.or_eq_true_iff.1 h with h | h
    · -- what is lost with the type arguments can at most turn a fit into a conversion
      have sub := Classes.isSubclass_of_assignable h
      simp [canCoerce, canConvert, same, sub]
    · have unknown : v.runtimeType.isDynamic := by
        unfold Ty.isDynamic at h ⊢
        rw [same, h]
      simp [unknown]
  · unfold canCoerce at h
    rcases Bool.or_eq_true_iff.1 h with h | h
    · have sub := Classes.isSubclass_of_assignable h
      simp [canCoerce, canConvert, same, sub]
    · unfold canCoerce
      rw [same, h]
      simp

/-- What is chosen takes as many arguments as there are, and accepts them. -/
theorem takes_of_unique {k : Nat} {coerced : Bool}
    (chosen : Overload.resolve w.classes (candidates.map (w.classes.paramTypes owner)) types w.canCoerce
      = .unique k coerced)
    (hm : candidates[k]? = some m) :
    m.arity = types.length
      ∧ Overload.acceptsAll (Overload.accepts w.classes w.canCoerce) (w.classes.paramTypes owner m) types := by
  have picked : k ∈ (Overload.resolve w.classes (candidates.map (w.classes.paramTypes owner)) types
      w.canCoerce).chosen := by
    rw [chosen]
    exact List.mem_singleton_self k
  have own : (candidates.map (w.classes.paramTypes owner))[k]? = some (w.classes.paramTypes owner m) := by
    rw [List.getElem?_map, hm]
    rfl
  obtain ⟨params, hp, arity, accepted⟩ := Overload.of_chosen_resolve picked
  rw [own] at hp
  cases hp
  rw [Classes.length_paramTypes] at arity
  exact ⟨arity, accepted⟩

theorem length_eq_of_classes (classes : args.map Value.classRef = types.map Ty.cls) : args.length = types.length := by
  have lengths := congrArg List.length classes
  rwa [List.length_map, List.length_map] at lengths

/-- Each argument is of the class of its static type. -/
theorem exists_type_of_classes (classes : args.map Value.classRef = types.map Ty.cls) {j : Nat} {v : Value}
    (hv : args[j]? = some v) : ∃ t, types[j]? = some t ∧ v.classRef = t.cls := by
  have there := congrArg (·[j]?) classes
  simp only [List.getElem?_map, hv, Option.map_some] at there
  obtain ⟨t, ht, hc⟩ := Option.map_eq_some_iff.1 there.symm
  exact ⟨t, ht, hc.symm⟩

/-- Parameters that accept the static types, bound alike as others, are met by the arguments as these others. -/
theorem acceptsAll_runtimeTypes {params params' : List Ty} (hl : params'.length = params.length)
    (classes : args.map Value.classRef = types.map Ty.cls) (bound : w.classes.BoundAlike args params params')
    (accepted : Overload.acceptsAll (Overload.accepts w.classes w.canCoerce) params types) :
    Overload.acceptsAll (Overload.accepts w.classes w.canCoerce) params' (args.map Value.runtimeType) := by
  rw [Overload.acceptsAll_iff] at accepted ⊢
  intro j p' t' hp' ht'
  rw [List.getElem?_map] at ht'
  obtain ⟨v, hv, rfl⟩ := Option.map_eq_some_iff.1 ht'
  obtain ⟨t, ht, hc⟩ := exists_type_of_classes classes hv
  have inside : j < params.length := by
    rw [← hl]
    exact (List.getElem?_eq_some_iff.1 hp').1
  have hp : params[j]? = some params[j] := List.getElem?_eq_getElem inside
  rcases bound j v _ p' hv hp hp' with rfl | ⟨-, kept⟩
  · exact accepts_runtimeType hc (accepted j _ t hp ht)
  · have coerces := canCoerce_of_satisfies (Bool.and_eq_true_iff.1 kept).1
    simp [Overload.accepts, coerces]

/-- The only method for the number of arguments is selected, if it accepts them. -/
theorem select?_of_only (only : candidates.filter (·.arity = args.length) = [m])
    (fits : Overload.acceptsAll (Overload.accepts w.classes w.canCoerce) (w.classes.paramTypes shown m)
      (args.map Value.runtimeType)) :
    w.select? candidates shown args = some (m, w.classes.paramTypes shown m) := by
  have shape : ∀ c : Method, (w.classes.paramTypes shown c).length = c.arity := Classes.length_paramTypes shown
  obtain ⟨i, hi, left⟩ := Overload.filter_enumerate_eq_singleton shape only 0
  rw [Nat.zero_add] at left
  have left' : (Overload.enumerate 0 (candidates.map (w.classes.paramTypes shown))).filter
      (·.params.length = (args.map Value.runtimeType).length) = [⟨i, w.classes.paramTypes shown m⟩] := by
    rw [List.length_map]
    exact left
  obtain ⟨coerced, again⟩ := Overload.resolve_eq_unique_of_accepts w.classes left' fits
  unfold select?
  simp [again, hi]

/-- Where all candidates for the number of arguments are seen alike, and accept alike, the choice by what the arguments
show is that by their static types. -/
theorem resolve_eq_of_told (classes : args.map Value.classRef = types.map Ty.cls)
    (alike : ∀ c ∈ candidates, c.arity = args.length →
      w.classes.paramTypes shown c = w.classes.paramTypes owner c
        ∧ w.classes.ToldAlike types args (w.classes.paramTypes owner c)) :
    Overload.resolve w.classes (candidates.map (w.classes.paramTypes shown)) (args.map Value.runtimeType) w.canCoerce
      = Overload.resolve w.classes (candidates.map (w.classes.paramTypes owner)) types w.canCoerce := by
  have hl := length_eq_of_classes classes
  refine Overload.resolve_congr (by rw [List.length_map, hl]) ?_ ?_ ?_
  · refine Overload.byArity_map_congr (Classes.length_paramTypes owner) (Classes.length_paramTypes shown) ?_
    intro c hc arity
    exact (alike c hc (by rw [arity, hl])).1
  · have known : (args.map Value.classRef).any ClassRef.isDynamic = (types.map Ty.cls).any ClassRef.isDynamic := by
      rw [classes]
    rw [List.any_map, List.any_map] at known
    rw [List.any_map]
    refine Eq.trans ?_ known
    simp only [Function.comp_def, Ty.isDynamic, Value.cls_runtimeType]
  · intro c hc j p t t' hp ht ht'
    rw [List.getElem?_map] at ht'
    obtain ⟨v, hv, rfl⟩ := Option.map_eq_some_iff.1 ht'
    obtain ⟨t₁, ht₁, hcls⟩ := exists_type_of_classes classes hv
    rw [ht] at ht₁
    cases ht₁
    -- the candidate that is left for the number of arguments is one of the methods
    obtain ⟨hc, hn⟩ := List.mem_filter.1 hc
    obtain ⟨i, -, hi⟩ := Overload.getElem?_of_mem_enumerate hc
    rw [List.getElem?_map] at hi
    obtain ⟨c', hc', params⟩ := Option.map_eq_some_iff.1 hi
    have takes : c'.arity = args.length := by
      rw [← Classes.length_paramTypes owner c', params, of_decide_eq_true hn, hl]
    have told : w.classes.assignable p v.runtimeType = w.classes.assignable p t :=
      (alike c' (List.mem_of_getElem? hc') takes).2 j p t v (by rw [params, hp]) ht hv
    have same : v.runtimeType.cls = t.cls := by rw [Value.cls_runtimeType, hcls]
    refine ⟨?_, canCoerce_congr same told⟩
    unfold Ty.isDynamic
    rw [told, same]

/-- A run selects the method that an analysis chooses, where the choice and the binding are alike. -/
theorem select?_of_alike {k : Nat} {coerced : Bool}
    (chosen : Overload.resolve w.classes (candidates.map (w.classes.paramTypes owner)) types w.canCoerce
      = .unique k coerced)
    (hm : candidates[k]? = some m) (classes : args.map Value.classRef = types.map Ty.cls)
    (alike : w.classes.ChosenAlike candidates owner shown types args)
    (bound : w.classes.BoundAlike args (w.classes.paramTypes owner m) (w.classes.paramTypes shown m)) :
    w.select? candidates shown args = some (m, w.classes.paramTypes shown m) := by
  obtain ⟨arity, accepted⟩ := takes_of_unique chosen hm
  rcases alike with ⟨m', only⟩ | alike
  · -- the only method for this number is chosen if it accepts the arguments, which it did for analysis
    have hl := length_eq_of_classes classes
    have same : m = m' := by
      have : m ∈ candidates.filter (·.arity = args.length) :=
        List.mem_filter.2 ⟨List.mem_of_getElem? hm, by simp [arity, hl]⟩
      rw [only] at this
      exact List.mem_singleton.1 this
    subst same
    have lengths : (w.classes.paramTypes shown m).length = (w.classes.paramTypes owner m).length := by
      rw [Classes.length_paramTypes, Classes.length_paramTypes]
    exact select?_of_only only (acceptsAll_runtimeTypes lengths classes bound accepted)
  · -- otherwise the two resolutions are one and the same computation
    have same := resolve_eq_of_told classes alike
    rw [chosen] at same
    unfold select?
    simp [same, hm]

/-- Where a run selects a method, it calls this method. -/
theorem callOverloaded_of_select? {receiver : Value} {name : String} {params : List Ty}
    (h : w.select? candidates shown args = some (m, params)) :
    w.callOverloaded candidates shown receiver name args
      = (do w.invoke m.code receiver (← w.bindArgs params args)) := by
  unfold callOverloaded
  rw [h]

/-- The constructor that is kept with a node is called. -/
theorem construct_of_chosen {c : ClassRef} {k : Nat} (hm : (w.classes.get c).constructors[k]? = some m)
    (args : List Value) :
    w.construct c args (some k) = (do w.invoke m.code (.cls c) (← w.bindArgs (w.classes.paramTypes (.raw c) m) args)) := by
  have some_constructor : (w.classes.get c).constructors.isEmpty = false :=
    List.isEmpty_eq_false_iff_exists_mem.2 ⟨m, List.mem_of_getElem? hm⟩
  unfold construct
  simp only [some_constructor, Bool.false_and, Bool.false_eq_true, if_false, Option.bind_some, hm]

end World

/-! ## Calls of a program -/

/-- The arguments of a call. -/
def Typed.Expr.arguments : Expr → List Expr
  | .methodCall _ _ _ args _ | .construct _ _ args _ => args
  | _ => []

/-- Whether the expression calls a method or a constructor. -/
def Typed.Expr.isCall : Expr → Bool
  | .methodCall .. | .construct .. => true
  | _ => false

namespace Context

variable (ctx : Context)

/-- The method is the choice, by static types, among candidates as an owner shows them. -/
def Chooses (owner : Ty) (candidates : List Method) (args : List Expr) (m : Method) : Prop :=
  ∃ k coerced, ctx.resolveOverload (candidates.map (ctx.classes.paramTypes owner)) (args.map Expr.type)
    = .unique k coerced ∧ candidates[k]? = some m

/-- Analysis resolves a call to a method among some candidates of an owner: the static methods of the class that the
receiver is known to be, or else the methods of its type, or the constructors of a type. -/
inductive ResolvesCall : Expr → Ty → List Method → Method → Prop
  | member {i : Info} {r : Expr} {name : String} {args : List Expr} {site : Nat} {m : Method}
      (known : (r.type.isDynamic || r.type.isNull) = false)
      (hs : ∀ c, r.classMeant? = some c → ctx.classes.staticMethods c name = [])
      (h : ctx.Chooses r.type (ctx.classes.methods r.type.cls name) args m) :
      ResolvesCall (.methodCall i r name args site) r.type (ctx.classes.methods r.type.cls name) m
  | static {i : Info} {r : Expr} {name : String} {args : List Expr} {site : Nat} {m : Method} {c : ClassRef}
      (hr : r.classMeant? = some c) (h : ctx.Chooses (.raw c) (ctx.classes.staticMethods c name) args m) :
      ResolvesCall (.methodCall i r name args site) (.raw c) (ctx.classes.staticMethods c name) m
  | constructor {i : Info} {args : List Expr} {chosen : Option Nat} {m : Method}
      (h : ctx.Chooses i.type (ctx.classes.get i.type.cls).constructors args m) :
      ResolvesCall (.construct i i.type.cls args chosen) i.type (ctx.classes.get i.type.cls).constructors m

/-- A call meets the receiver that analysis expects, which a run sees under a type: a value of exactly the static class
of the receiver, where a class value has no static methods of the name; for static methods and constructors the class
itself. -/
inductive Meets : Expr → Value → Ty → Prop
  | member {i : Info} {r : Expr} {name : String} {args : List Expr} {site : Nat} {v : Value}
      (hs : ∀ c, r.classMeant? = some c → ctx.classes.staticMethods c name = [])
      (hv : v.classRef = r.type.cls) (hc : ∀ c, v = .cls c → ctx.classes.staticMethods c name = []) :
      Meets (.methodCall i r name args site) v v.runtimeType
  | static {i : Info} {r : Expr} {name : String} {args : List Expr} {site : Nat} {c : ClassRef}
      (hr : r.classMeant? = some c) (hs : ctx.classes.staticMethods c name ≠ []) :
      Meets (.methodCall i r name args site) (.cls c) (.raw c)
  | constructor {i : Info} {c : ClassRef} {args : List Expr} {chosen : Option Nat} :
      Meets (.construct i c args chosen) (.cls c) (.raw c)

end Context

namespace Setting

variable (σ : Setting)

/-- Evaluate what a call works on: the receiver, which is the class itself for a constructor, and the arguments. -/
def operands : Expr → Exec (Value × List Value)
  | .methodCall _ r _ args _ => do
    let receiver ← σ.deeper (σ.value r)
    let args ← σ.values args
    return (receiver, args)
  | .construct _ c args _ => do
    let args ← σ.values args
    return (.cls c, args)
  | _ => return (.null, [])

/-- What a call does once its receiver and arguments are evaluated. -/
def dispatch (e : Expr) (receiver : Value) (args : List Value) : Exec Value :=
  match e with
  | .methodCall _ _ name _ site => σ.callMethod receiver name args site
  | .construct _ c _ chosen => .act (σ.world.construct c args chosen)
  | _ => return .null

variable {σ : Setting}

/-- A call whose receiver and arguments are evaluated goes on with these. -/
theorem value_of_operands {e : Expr} (he : e.isCall) {receiver : Value} {args : List Value} {s s' : Running}
    (h : σ.operands e s = (.ok (receiver, args), s')) : σ.value e s = σ.dispatch e receiver args s' := by
  cases e with
  | methodCall i r name es site =>
    obtain ⟨v, s₁, hr, h⟩ := Exec.of_bind_ok h
    obtain ⟨vs, s₂, hes, h⟩ := Exec.of_bind_ok h
    obtain ⟨pair, rfl⟩ := Exec.of_pure_ok h
    cases pair
    unfold value
    rw [Exec.bind_of_ok hr, Exec.bind_of_ok hes]
    rfl
  | construct i c es chosen =>
    obtain ⟨vs, s₁, hes, h⟩ := Exec.of_bind_ok h
    obtain ⟨pair, rfl⟩ := Exec.of_pure_ok h
    cases pair
    unfold value
    rw [Exec.bind_of_ok hes]
    rfl
  | _ => cases he

/-- A call through a site that does not stray is that of the lookup, and the sites stay bound as they should be. -/
theorem callMethod_eq_lookup {p : Program} {site : Nat} {name : String} {receiver : Value} {args : List Value}
    (hm : p.memberAt site = .method name args.length)
    (straight : (⟨receiver, args, rfl⟩ : Call args.length).stray? σ.world name = none) {s : Running}
    (bound : p.Binds σ.world.classes s.sites) :
    ∃ sites, p.Binds σ.world.classes sites ∧ σ.callMethod receiver name args site s
      = Exec.act (σ.world.callMethod receiver name args) { s with sites := sites } := by
  refine Exec.atSite_eq hm (fun given own => ?_) (fun given own => ?_) bound
  · exact own.call σ.strategy ⟨receiver, args, rfl⟩
  · exact own.call_eq_lookup σ.strategy straight

end Setting

/-! ## Calls that are resolved to one method -/

namespace Context

variable {ctx : Context} {owner shown : Ty} {candidates : List Method} {es : List Expr} {m : Method}
  {args : List Value}

/-- What is chosen is a candidate that takes as many arguments as there are. -/
theorem Chooses.mem (h : ctx.Chooses owner candidates es m) : m ∈ candidates ∧ m.arity = es.length := by
  obtain ⟨k, coerced, chosen, hm⟩ := h
  obtain ⟨arity, -⟩ := World.takes_of_unique chosen hm
  rw [List.length_map] at arity
  exact ⟨List.mem_of_getElem? hm, arity⟩

/-- A run calls the method that analysis chooses, with the arguments converted as analysis saw them. -/
theorem Chooses.callOverloaded (h : ctx.Chooses owner candidates es m)
    (classes : args.map Value.classRef = es.map (·.type.cls))
    (alike : ctx.classes.ChosenAlike candidates owner shown (es.map Expr.type) args)
    (bound : ctx.classes.BoundAlike args (ctx.classes.paramTypes owner m) (ctx.classes.paramTypes shown m))
    (receiver : Value) (name : String) :
    ctx.world.callOverloaded candidates shown receiver name args
      = (do ctx.world.invoke m.code receiver (← ctx.world.bindArgs (ctx.classes.paramTypes owner m) args)) := by
  obtain ⟨k, coerced, chosen, hm⟩ := h
  have classes' : args.map Value.classRef = (es.map Expr.type).map Ty.cls := by
    rw [classes, List.map_map]
    rfl
  rw [World.callOverloaded_of_select? (World.select?_of_alike chosen hm classes' alike bound)]
  have lengths : (ctx.classes.paramTypes shown m).length = (ctx.classes.paramTypes owner m).length := by
    rw [Classes.length_paramTypes, Classes.length_paramTypes]
  have same : ctx.world.bindArgs (ctx.world.classes.paramTypes shown m) args
      = ctx.world.bindArgs (ctx.classes.paramTypes owner m) args := World.bindArgs_congr lengths bound
  rw [same]

/-- The lookup calls the method that analysis chooses, on the receiver that it expects. -/
theorem callMethod_of_resolves {i : Info} {r : Expr} {name : String} {site : Nat} {receiver : Value}
    (resolves : ctx.ResolvesCall (.methodCall i r name es site) owner candidates m)
    (meets : ctx.Meets (.methodCall i r name es site) receiver shown)
    (classes : args.map Value.classRef = es.map (·.type.cls))
    (alike : ctx.classes.ChosenAlike candidates owner shown (es.map Expr.type) args)
    (bound : ctx.classes.BoundAlike args (ctx.classes.paramTypes owner m) (ctx.classes.paramTypes shown m)) :
    ctx.world.callMethod receiver name args
      = (do ctx.world.invoke m.code receiver (← ctx.world.bindArgs (ctx.classes.paramTypes owner m) args)) := by
  cases resolves with
  | member known hs h =>
    cases meets with
    -- analysis takes a class for the receiver just if the run meets one, so that two of the four cases are void
    | static hr statics => exact absurd (hs _ hr) statics
    | member _ hv hc =>
      have there : ctx.world.callMember receiver name args
          = ctx.world.callOverloaded (ctx.classes.methods r.type.cls name) receiver.runtimeType receiver name args := by
        have found := h.mem.1
        unfold World.callMember
        rw [hv]
        split
        · rename_i none
          have none : ctx.classes.methods r.type.cls name = [] := none
          rw [none] at found
          cases found
        · rfl
      rw [← h.callOverloaded classes alike bound receiver name, ← there]
      unfold World.callMethod
      split
      · -- the static class is not that of null
        have : r.type.cls = .builtin .null := hv.symm
        simp [Ty.isNull, this] at known
      · rename_i c
        have none : ctx.world.classes.staticMethods c name = [] := hc c rfl
        rw [none]
      · rfl
  | static hr h =>
    cases meets with
    | member hs _ _ =>
      have found := h.mem.1
      rw [hs _ hr] at found
      cases found
    | @static _ _ _ _ _ c' hr' statics =>
      rw [hr] at hr'
      cases hr'
      rw [← h.callOverloaded classes alike bound]
      unfold World.callMethod
      dsimp only
      split
      · rename_i none
        exact absurd none statics
      · rfl

/-- The call does not stray from the lookup, if none of its arguments poses as an array. -/
theorem stray?_eq_none_of_resolves {i : Info} {r : Expr} {name : String} {site : Nat} {receiver : Value}
    (resolves : ctx.ResolvesCall (.methodCall i r name es site) owner candidates m)
    (meets : ctx.Meets (.methodCall i r name es site) receiver shown) (hl : args.length = es.length)
    (plain : ctx.classes.firstPosing? args (ctx.classes.paramTypes shown m) = none) :
    (⟨receiver, args, rfl⟩ : Call args.length).stray? ctx.world name = none := by
  unfold Call.stray?
  cases hf : (⟨receiver, args, rfl⟩ : Call args.length).fastPath? ctx.world name with
  | none => rfl
  | some fast =>
    obtain ⟨m', params⟩ := fast
    obtain ⟨-, hc, only, rfl, -⟩ := Call.of_fastPath? hf
    cases meets with
    | static => exact absurd rfl (hc _)
    | member hs hv _ =>
      cases resolves with
      | static hr h =>
        have found := h.mem.1
        rw [hs _ hr] at found
        cases found
      | member known _ h =>
        obtain ⟨found, arity⟩ := h.mem
        -- the fast path takes the only method for this number of arguments, and that is the one of analysis
        have same : m = m' := by
          have : m ∈ (ctx.world.classes.methods receiver.classRef name).filter (·.arity = args.length) := by
            rw [hv]
            exact List.mem_filter.2 ⟨found, by simp [arity, hl]⟩
          rw [only] at this
          exact List.mem_singleton.1 this
        rw [← same]
        exact plain

/-- The constructor that analysis chooses is kept with the node. -/
theorem chosen_of_rule {config : Config} {i : Info} {chosen : Option Nat}
    (rule : ctx.Rule config (.construct i i.type.cls es chosen))
    (h : ctx.Chooses i.type (ctx.classes.get i.type.cls).constructors es m) :
    ∃ k, chosen = some k ∧ (ctx.classes.get i.type.cls).constructors[k]? = some m := by
  obtain ⟨k, coerced, resolved, hm⟩ := h
  obtain ⟨-, a, b, -, answered⟩ := rule
  refine ⟨k, ?_, hm⟩
  unfold chosenConstructor at answered
  have some_constructor : (ctx.classes.get i.type.cls).constructors.isEmpty = false :=
    List.isEmpty_eq_false_iff_exists_mem.2 ⟨m, List.mem_of_getElem? hm⟩
  rw [some_constructor, resolved] at answered
  cases answered
  rfl

end Context

/-! ## Compiled programs -/

/-- Whether the expression calls a method. -/
def Typed.Expr.isMethodCall : Expr → Bool
  | .methodCall .. => true
  | _ => false

/-- The operands of a call keep the call sites bound as they should be. -/
theorem Setting.proper_operands {σ : Setting} {p : Program} {env : Environment} (wm : p.WellMade σ.world env)
    {e : Expr} (he : e.parts ⊆ Stmt.partsAll p.body) : Exec.Proper σ.world p (σ.operands e) fun _ => True := by
  cases e with
  | methodCall i r name args site =>
    obtain ⟨hr, hargs⟩ := List.append_subset.1 (List.Subset.trans (List.subset_cons_self _ _) he)
    refine (proper_deeper (proper_value wm r hr)).bind fun _ _ => ?_
    exact (proper_values wm args hargs).bind fun _ _ => .pure trivial
  | construct i c args chosen =>
    have hargs : Expr.partsAll args ⊆ Stmt.partsAll p.body := List.Subset.trans (List.subset_cons_self _ _) he
    exact (proper_values wm args hargs).bind fun _ _ => .pure trivial
  | _ => exact .pure trivial

/-- **Calls as analysis resolves them.** Let analysis resolve a call of a method, a static method or a constructor in a
compiled program or setter to one method. Whenever the call is executed with a receiver of just the static class and
with arguments of just the static classes, in whatever state of the program and of its call sites, it calls this method
on the receiver, with the arguments converted to the parameter types that analysis saw, or fails as the first of these
conversions that fails. This holds as far as the type arguments that a run does not see make no difference: a parameter
type is the same without them, or the argument needs no conversion to either; and for a method, which the run chooses
again, no argument poses as an array, and if it is not the only one for its number of arguments, all those that there
are have the same parameter types without type arguments and accept the same arguments by what these show. -/
theorem Engine.call_eq_of_resolves {e : Engine} {source : String} {isSetter : Bool} {config : Config} {x : Expression}
    (h : e.compile source isSetter config = .ok x) {node : Expr} (part : node ∈ Stmt.partsAll x.program.body)
    {owner shown : Ty} {candidates : List Method} {m : Method}
    (resolves : (e.context source).ResolvesCall node owner candidates m) {receiver : Value} {args : List Value}
    (meets : (e.context source).Meets node receiver shown)
    (classes : args.map Value.classRef = node.arguments.map (·.type.cls))
    (bound : e.world.classes.BoundAlike args (e.world.classes.paramTypes owner m) (e.world.classes.paramTypes shown m))
    (alike : node.isMethodCall →
      e.world.classes.ChosenAlike candidates owner shown (node.arguments.map Expr.type) args
        ∧ e.world.classes.firstPosing? args (e.world.classes.paramTypes shown m) = none)
    {σ : Setting} (hσ : σ.world = e.world) {s s' : Running} (sited : x.program.Binds e.world.classes s.sites)
    (evaluated : σ.operands node s = (.ok (receiver, args), s')) :
    ∃ sites, x.program.Binds e.world.classes sites ∧ σ.value node s
      = Exec.act (do e.world.invoke m.code receiver (← e.world.bindArgs (e.world.classes.paramTypes owner m) args))
        { s' with sites := sites } := by
  have wm := wellMade_of_compile h
  have rules := (rule_of_compile h).1
  rw [← hσ] at wm sited
  have sited' : x.program.Binds σ.world.classes s'.sites :=
    ((Setting.proper_operands wm (Stmt.parts_subset_all _ part)).of_ok sited evaluated).1
  have hl : args.length = node.arguments.length := by
    have lengths := congrArg List.length classes
    rwa [List.length_map, List.length_map] at lengths
  have call : node.isCall := by cases resolves <;> rfl
  rw [Setting.value_of_operands call evaluated]
  -- a method is chosen again by the run, through its site; a constructor is the one that analysis noted
  cases node with
  | methodCall i r name es site =>
    obtain ⟨alike, plain⟩ := alike rfl
    have straight := Context.stray?_eq_none_of_resolves resolves meets hl plain
    have accessed : x.program.memberAt site = .method name args.length := by
      rw [wm.memberAt_eq part rfl, hl]
      rfl
    have looked := Context.callMethod_of_resolves resolves meets classes alike bound
    have whole : (e.context source).world = σ.world := hσ.symm
    rw [whole] at straight looked
    obtain ⟨sites, kept, called⟩ := Setting.callMethod_eq_lookup accessed straight sited'
    refine ⟨sites, hσ ▸ kept, ?_⟩
    have dispatched : σ.dispatch (.methodCall i r name es site) receiver args s'
        = σ.callMethod receiver name args site s' := rfl
    rw [dispatched, called, looked, hσ]
    rfl
  | construct i c es chosen =>
    cases resolves with
    | constructor chooses =>
      cases meets
      obtain ⟨k, rfl, hm⟩ := Context.chosen_of_rule (rules _ part) chooses
      refine ⟨s'.sites, hσ ▸ sited', ?_⟩
      -- the run knows the class without its type arguments, and binds the arguments to the parameters of that
      have lengths : (e.world.classes.paramTypes (.raw i.type.cls) m).length
          = (e.world.classes.paramTypes i.type m).length := by
        rw [Classes.length_paramTypes, Classes.length_paramTypes]
      have built := World.construct_of_chosen (w := e.world) hm args
      rw [World.bindArgs_congr lengths bound] at built
      show Exec.act (σ.world.construct i.type.cls args (some k)) s' = _
      rw [hσ, built]
  | _ => cases call

/-! ## Type arguments that a run sees, and that it does not see -/

/-- The rest of a text from a place on. -/
def substringFrom : Method where
  name := "substring"
  params := [.raw (.builtin .integer)]
  result := .self
  declaring := "String"
  code := .intrinsic .stringSubstringFrom

/-- The call of this method on a text, with a text for the place. -/
def substringCall (i : Info) (receiver argument : Span) (site : Nat) : Expr :=
  .methodCall i (.constant ⟨.raw (.builtin .string), receiver⟩ (.str "abc")) "substring"
    [.constant ⟨.raw (.builtin .string), argument⟩ (.str "1")] site

/-- Analysis chooses the method by the text being convertible to an integer. -/
theorem resolves_substringCall (source : String) (i : Info) (receiver argument : Span) (site : Nat) :
    (Engine.bare.context source).ResolvesCall (substringCall i receiver argument site) (.raw (.builtin .string))
      (Engine.bare.world.classes.methods (.builtin .string) "substring") substringFrom :=
  .member rfl nofun ⟨0, true, rfl, rfl⟩

/-- A run meets the text. -/
theorem meets_substringCall (source : String) (i : Info) (receiver argument : Span) (site : Nat) :
    (Engine.bare.context source).Meets (substringCall i receiver argument site) (.str "abc")
      (Value.str "abc").runtimeType :=
  .member nofun rfl nofun

/-- The program is this call, which gives the rest of the text. -/
def isSubstringCall (x : Expression) : Bool :=
  match x.program.body with
  | [.expr (.methodCall i (.constant ⟨t, r⟩ (.str "abc")) "substring" [.constant ⟨u, a⟩ (.str "1")] site)] =>
    (t = .raw (.builtin .string) && u = .raw (.builtin .string))
      && (Setting.bare.value (substringCall i r a site) (.start (.ofHeap .empty) [] x.sites)).1.toOption
        = some (.str "bc")
  | _ => false

/-- A text that is passed for an integer is converted to it, as analysis chose. -/
theorem call_eq_of_resolves_substring :
    ∃ x node, Engine.bare.compile "'abc'.substring('1')" false .default = .ok x ∧ x.program.body = [.expr node]
      ∧ let start : Running := .start (.ofHeap .empty) [] x.sites
        (Setting.bare.value node start).1.toOption = some (.str "bc")
        ∧ ∃ sites, Setting.bare.value node start = Exec.act (do
            let args ← World.bare.bindArgs [.raw (.builtin .integer)] [.str "1"]
            World.bare.invoke (.intrinsic .stringSubstringFrom) (.str "abc") args) { start with sites := sites } := by
  let start (x : Expression) : Running := .start (.ofHeap .empty) [] x.sites
  have found : (Engine.bare.compile "'abc'.substring('1')" false .default).toOption.any isSubstringCall := by
    decide +kernel
  obtain ⟨x, hx, shape⟩ := exists_ok_of_any found
  unfold isSubstringCall at shape
  split at shape
  · rename_i i t r u a site body
    obtain ⟨types, outcome⟩ := Bool.and_eq_true_iff.1 shape
    obtain ⟨ht, hu⟩ := Bool.and_eq_true_iff.1 types
    cases of_decide_eq_true ht
    cases of_decide_eq_true hu
    have sited : x.program.Binds Setting.bare.world.classes (start x).sites := by
      obtain ⟨body, program, env, -, -, rfl⟩ := Engine.compile_ok hx
      exact Expression.binds_fresh program env false .default _
    have part : substringCall i r a site ∈ Stmt.partsAll x.program.body := by
      rw [body]
      exact List.mem_cons_self
    -- the other method takes two arguments
    have only : (Engine.bare.world.classes.methods (.builtin .string) "substring").filter
        (·.arity = [Value.str "1"].length) = [substringFrom] := rfl
    have evaluated : Setting.bare.operands (substringCall i r a site) (start x)
      = (.ok (.str "abc", [.str "1"]), start x) := rfl
    obtain ⟨sites, -, called⟩ := Engine.call_eq_of_resolves hx part (resolves_substringCall _ i r a site)
      (meets_substringCall _ i r a site) rfl (.refl _ _) (fun _ => ⟨.inl ⟨_, only⟩, rfl⟩) rfl sited evaluated
    exact ⟨x, _, hx, body, of_decide_eq_true outcome, sites, called⟩
  · cases shape

/-- A list gets another item. -/
def listAdd : Method where
  name := "add"
  params := [.var "E"]
  result := .raw (.builtin .boolean)
  declaring := "List"
  code := .intrinsic .listAdd

/-- A program that adds a text to a list of integers. -/
def addsText : String := "List<Integer> xs = [1]; xs.add('5'); xs"

/-- The intrinsic behind this method has run on a list, with the text as it is. -/
def ranListAdd : Event → Bool
  | .ran code receiver args _ => code = listAdd.code && receiver.classRef = .builtin .list && args = [.str "5"]
  | .converted .. => false

/-- The program calls this method on a variable that holds a list of integers, and adds the text. -/
def addsTextToIntegers (x : Expression) : Bool :=
  match x.program.body with
  | [_, .expr (.methodCall _ (.declared ⟨t, _⟩ "xs") "add" [.constant ⟨u, _⟩ (.str "5")] _), _] =>
    (t = .mk (.builtin .list) [.raw (.builtin .integer)] && u = .raw (.builtin .string))
      && ((⟨.ofHeap .empty, [], x⟩ : Workspace).executeWith .bare .specialized .default .null).2.store.trace.any
        ranListAdd
  | _ => false

/-- Analysis sees an integer parameter, which a text is converted to. A run sees a list of no particular type, and adds
the text as it is. -/
theorem addedText_of_resolves_listAdd :
    ∃ x node, Engine.bare.compile addsText false .default = .ok x ∧ node ∈ Stmt.partsAll x.program.body
      ∧ let owner : Ty := .mk (.builtin .list) [.raw (.builtin .integer)]
        (Engine.bare.context addsText).ResolvesCall node owner
          (World.bare.classes.methods (.builtin .list) "add") listAdd
        ∧ node.arguments.map (·.type.cls) = [(Value.str "5").classRef]
        ∧ (∀ s, (World.bare.bindArgs (World.bare.classes.paramTypes owner listAdd) [.str "5"] s).1 = .ok [.int 5])
        ∧ ((⟨.ofHeap .empty, [], x⟩ : Workspace).executeWith .bare .specialized .default .null).2.store.trace.any
          ranListAdd := by
  have found : (Engine.bare.compile addsText false .default).toOption.any addsTextToIntegers := by
    decide +kernel
  obtain ⟨x, hx, shape⟩ := exists_ok_of_any found
  unfold addsTextToIntegers at shape
  split at shape
  · rename_i declared i t r u a site listed body
    obtain ⟨types, added⟩ := Bool.and_eq_true_iff.1 shape
    obtain ⟨ht, hu⟩ := Bool.and_eq_true_iff.1 types
    cases of_decide_eq_true ht
    cases of_decide_eq_true hu
    let receiver : Expr := .declared ⟨.mk (.builtin .list) [.raw (.builtin .integer)], r⟩ "xs"
    let argument : Expr := .constant ⟨.raw (.builtin .string), a⟩ (.str "5")
    have part : .methodCall i receiver "add" [argument] site ∈ Stmt.partsAll x.program.body := by
      rw [body, Stmt.partsAll]
      exact List.mem_append_right _ List.mem_cons_self
    have resolves : (Engine.bare.context addsText).ResolvesCall (.methodCall i receiver "add" [argument] site)
        receiver.type (World.bare.classes.methods (.builtin .list) "add") listAdd :=
      .member rfl (fun _ meant => by cases meant) ⟨0, true, rfl, rfl⟩
    exact ⟨x, _, hx, part, resolves, rfl, fun _ => rfl, added⟩
  · cases shape

end HostExpr
