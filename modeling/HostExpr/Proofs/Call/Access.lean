import HostExpr.Execution.Operator
import HostExpr.Proofs.Call.Choice
import HostExpr.Proofs.Call.Conversion
import HostExpr.Proofs.Site.Method
import HostExpr.Proofs.Site.Transparency

/-!
# Accesses call bodies well

Each way to a body binds the arguments in its own manner: a call binds them to the parameters of the overload that it
has selected, a property setter converts its one value, a constructor may be chosen beforehand, and a specialized
accessor takes arguments that fit as they are. All of them call bodies well.
-/

namespace HostExpr

open Act

variable {w : World}

/-! ## Conditions and operators -/

namespace World

theorem proper_truth (w : World) (v : Value) : Proper w (w.truth v) fun _ => True := by
  intro s
  unfold truth
  split
  · exact Proper.pure trivial s
  · exact Proper.pure trivial s
  · obtain ⟨new, grown, good, -, -⟩ := w.proper_convert v (.builtin .boolean) s
    split
    · rename_i b s' hc
      rw [hc] at grown
      exact ⟨new, grown, good, nofun, fun _ _ => trivial⟩
    · rename_i outcome s' _ hc
      rw [hc] at grown
      exact ⟨new, grown, good, nofun, fun _ _ => trivial⟩

theorem proper_spellsBool (w : World) (text : Value) (b : Bool) : Proper w (w.spellsBool text b) fun _ => True := by
  intro s
  obtain ⟨new, grown, good, -, -⟩ := w.proper_convert text (.builtin .boolean) s
  unfold spellsBool
  split
  · rename_i v s' hc
    rw [hc] at grown
    exact ⟨new, grown, good, nofun, fun _ _ => trivial⟩
  · rename_i e s' hc
    rw [hc] at grown
    exact ⟨new, grown, good, nofun, fun _ _ => trivial⟩

theorem proper_looseEqual (w : World) (left right : Value) : Proper w (w.looseEqual left right) fun _ => True := by
  unfold looseEqual
  split
  · exact .pure trivial
  · split
    · exact w.proper_spellsBool _ _
    · exact w.proper_spellsBool _ _
    · split
      · exact .pure trivial
      · exact .quiet (quiet_equal _ _)
    · split
      · exact .pure trivial
      · exact .quiet (quiet_equal _ _)
    · exact .quiet (quiet_equal _ _)

theorem proper_compare (w : World) (op : CompareOp) (left right : Value) :
    Proper w (w.compare op left right) fun _ => True := by
  unfold compare
  split
  · exact w.proper_looseEqual left right
  · exact (w.proper_looseEqual left right).bind fun _ _ => .pure trivial
  · split
    · exact .pure trivial
    · split
      · exact .pure trivial
      · exact .throw nofun

end World

/-- No failure of arithmetic is the lack of an input. -/
theorem ArithOp.error_onNumbers {op : ArithOp} {cs : Classes} {left right : Value} {e : RuntimeError}
    (h : op.onNumbers cs left right = .error e) (name : String) : e ≠ .unboundInput name := by
  rintro rfl
  unfold onNumbers at h
  repeat' split at h
  all_goals cases h

theorem ArithOp.proper_apply (op : ArithOp) (left right : Value) :
    Proper w (op.apply w.classes left right) fun _ => True := by
  unfold apply
  split
  · refine .quiet (.bind (quiet_textOf _ _) fun l => .bind (quiet_textOf _ _) fun r => .pure _)
  · split
    · exact .pure trivial
    · rename_i e failed
      exact .throw (error_onNumbers failed)

namespace World

/-! ## Calls -/

/-- What the receiver offers is run on arguments of the types that it declares. -/
theorem proper_offered {receiver : Value} {code : Code} {params : List Ty} {args : List Value}
    (offered : w.Offers receiver code params) (bound : w.OfTypes params args) :
    Proper w (w.invoke code receiver args) fun _ => True :=
  proper_invoke fun promised => ⟨params, offered, bound.1, bound.2 promised⟩

/-- The arguments are bound to the parameters of what the receiver offers, and the body is run on them. -/
theorem proper_boundCall {receiver : Value} {code : Code} {params : List Ty} {args : List Value}
    (offered : w.Offers receiver code params) (hl : args.length = params.length) :
    Proper w (do w.invoke code receiver (← w.bindArgs params args)) fun _ => True :=
  (w.proper_bindArgs hl).bind fun _ bound => proper_offered offered bound

/-- A call of an overloaded body, all of whose candidates the receiver offers. -/
theorem proper_callOverloaded {candidates : List Method} {owner : Ty} {receiver : Value}
    (offered : ∀ m ∈ candidates, w.Offers receiver m.code (w.classes.paramTypes owner m)) (name : String)
    (args : List Value) : Proper w (w.callOverloaded candidates owner receiver name args) fun _ => True := by
  unfold callOverloaded
  split
  · exact .throw nofun
  · rename_i m params selected
    obtain ⟨hm, rfl, hl⟩ := of_select? selected
    exact proper_boundCall (offered m hm) hl.symm

theorem proper_callMember (w : World) (receiver : Value) (name : String) (args : List Value) :
    Proper w (w.callMember receiver name args) fun _ => True := by
  unfold callMember
  split
  · exact .throw nofun
  · exact proper_callOverloaded (fun m hm => .method hm) name args

theorem proper_callMethod (w : World) (receiver : Value) (name : String) (args : List Value) :
    Proper w (w.callMethod receiver name args) fun _ => True := by
  unfold callMethod
  split
  · exact .throw nofun
  · split
    · exact w.proper_callMember _ name args
    · exact proper_callOverloaded (fun m hm => .staticMethod hm) name args
  · exact w.proper_callMember receiver name args

theorem proper_constructPlain (w : World) (c : ClassRef) : Proper w (w.constructPlain c) fun _ => True := by
  unfold constructPlain
  split
  · exact .quiet (quiet_newList _)
  · exact .quiet (quiet_newMap _)
  · exact .quiet (.map _ (quiet_newSlots _ _))
  · exact .throw nofun

/-- A construction, by a constructor that takes as many arguments as there are if one is chosen beforehand. -/
theorem proper_construct {c : ClassRef} {args : List Value} {chosen : Option Nat}
    (fits : ∀ i, chosen = some i → ∃ m, (w.classes.get c).constructors[i]? = some m ∧ m.arity = args.length) :
    Proper w (w.construct c args chosen) fun _ => True := by
  unfold construct
  dsimp only
  split
  · exact w.proper_constructPlain c
  · split
    · rename_i m found
      obtain ⟨i, rfl, hi⟩ := Option.bind_eq_some_iff.1 found
      obtain ⟨m', hm', hl⟩ := fits i rfl
      obtain rfl := Option.some.inj (hi.symm.trans hm')
      refine proper_boundCall (.constructor (List.mem_of_getElem? hi)) ?_
      rw [← hl]
      exact (List.length_map _).symm
    · exact proper_callOverloaded (fun m hm => .constructor hm) _ args

/-! ## Properties -/

/-- A method of the number of arguments that was asked for. -/
theorem of_methodOfArity? {c : ClassRef} {name : String} {n : Nat} {m : Method}
    (h : w.classes.methodOfArity? c name n = some m) : m ∈ w.classes.methods c name ∧ m.arity = n := by
  refine ⟨List.mem_of_find?_eq_some h, ?_⟩
  have := List.find?_some h
  exact of_decide_eq_true this

/-- A method that stands for reading a property is offered, without parameters. -/
theorem offers_getterMethod {receiver : Value} {name : String} {m : Method}
    (h : w.classes.getterMethod? receiver.classRef name = some m) : w.Offers receiver m.code [] := by
  obtain ⟨capital, -, found⟩ := Option.bind_eq_some_iff.1 h
  have bare {getter : String} (hg : w.classes.methodOfArity? receiver.classRef getter 0 = some m) :
      w.Offers receiver m.code [] := by
    obtain ⟨hm, arity⟩ := of_methodOfArity? hg
    have none : w.classes.paramTypes receiver.runtimeType m = [] := by
      rw [Classes.paramTypes, List.length_eq_zero_iff.1 arity]
      rfl
    rw [← none]
    exact .method hm
  rcases Option.or_eq_some_iff.1 found with hg | ⟨-, hg⟩
  · exact bare hg
  · exact bare hg

theorem proper_getMember (w : World) (receiver : Value) (name : String) :
    Proper w (w.getMember receiver name) fun _ => True := by
  unfold getMember
  split
  · rename_i property found
    split
    · exact .quiet (quiet_slot _ _)
    · rename_i hk
      exact proper_offered (.getter found hk) .nil
    · exact .throw nofun
  · split
    · rename_i found
      exact proper_offered (offers_getterMethod found) .nil
    · exact .throw nofun

theorem proper_getProperty (w : World) (receiver : Value) (name : String) :
    Proper w (w.getProperty receiver name) fun _ => True := by
  unfold getProperty
  split
  · exact .throw nofun
  · split
    · exact .pure trivial
    · exact w.proper_getMember _ name
  · exact .quiet (.bind (quiet_mapGet? _ _) fun _ => .pure _)
  · exact w.proper_getMember receiver name

theorem proper_setMember (w : World) (receiver : Value) (name : String) (v : Value) :
    Proper w (w.setMember receiver name v) fun _ => True := by
  unfold setMember
  split
  · rename_i property found
    dsimp only
    split
    · exact (w.proper_convertTo _ v).bind fun v _ => .quiet (quiet_setSlot _ _ v)
    · -- a setter of a property takes the converted value, so that what it is called with fits
      rename_i hk
      refine (w.proper_convertTo _ v).bind fun v fits => ?_
      exact (proper_offered (.setter found hk) (.cons fits .nil)).bind fun _ _ => .pure trivial
    · exact .throw fun _ => RuntimeError.noConfusion
  · split
    · rename_i setter found
      obtain ⟨capital, -, hs⟩ := Option.bind_eq_some_iff.1 found
      obtain ⟨hm, arity⟩ := of_methodOfArity? hs
      -- a setter method is looked for among those of one parameter
      have one : [v].length = (w.paramTypesOn receiver setter).length := by
        rw [paramTypesOn, Classes.paramTypes, List.length_map]
        exact arity.symm
      refine (w.proper_bindArgs one).bind fun args bound => ?_
      exact (proper_offered (.method hm) bound).bind fun _ _ => .pure trivial
    · exact .throw fun _ => RuntimeError.noConfusion

theorem proper_setProperty (w : World) (receiver : Value) (name : String) (v : Value) :
    Proper w (w.setProperty receiver name v) fun _ => True := by
  unfold setProperty
  split
  · exact .throw nofun
  · exact .quiet (.bind (quiet_mapPut _ _ _) fun _ => .pure _)
  · exact w.proper_setMember receiver name v

/-! ## Items -/

theorem proper_position (w : World) (index : Value) (length : Nat) :
    Proper w (w.position index length) fun _ => True := by
  have checked (n : Int) :
      Proper w (if 0 ≤ n ∧ n < length then pure n.toNat else throw (.indexOutOfBounds n length)) fun _ => True := by
    split
    · exact .pure trivial
    · exact .throw nofun
  unfold position
  split
  · exact checked _
  · exact Proper.bind (w.proper_convert index _) fun converted _ => checked _

theorem proper_getItem (w : World) (h : Handle) (index : Value) :
    Proper w (w.getItem h index) fun _ => True := by
  unfold getItem
  refine (Proper.quiet (quiet_items h)).bind fun items _ => ?_
  refine (w.proper_position index _).bind fun i _ => ?_
  exact .quiet (.bind (quiet_items h) fun _ => .pure _)

theorem proper_setItem (w : World) (h : Handle) (index v : Value) :
    Proper w (w.setItem h index v) fun _ => True := by
  unfold setItem
  refine (Proper.quiet (quiet_items h)).bind fun items _ => ?_
  refine (w.proper_position index _).bind fun i _ => ?_
  exact .quiet (.bind (quiet_items h) fun _ => quiet_setItems h _)

theorem proper_getIndex (w : World) (receiver index : Value) :
    Proper w (w.getIndex receiver index) fun _ => True := by
  unfold getIndex
  split
  · exact .throw nofun
  · exact w.proper_getItem _ index
  · exact w.proper_getItem _ index
  · exact .quiet (.bind (quiet_mapGet? _ _) fun _ => .pure _)
  · exact .throw nofun

theorem proper_setIndex (w : World) (receiver index v : Value) :
    Proper w (w.setIndex receiver index v) fun _ => True := by
  unfold setIndex
  split
  · exact .throw nofun
  · exact w.proper_setItem _ index v
  · rename_i h item
    refine (Proper.quiet (quiet_items h)).bind fun items _ => ?_
    refine (w.proper_position index _).bind fun i _ => ?_
    refine (w.proper_convertTo item v).bind fun v _ => ?_
    exact .quiet (.bind (quiet_items h) fun _ => quiet_setItems h _)
  · exact .quiet (.bind (quiet_mapPut _ _ _) fun _ => .pure _)
  · exact .throw nofun

end World

/-! ## Call sites -/

namespace Site

variable {site : Site}

/-- Accesses to properties and items through a site are those of the lookup. -/
theorem Bound.proper_access {member : Member} (h : site.Bound w.classes member) (default : Strategy)
    (a : Access member) : Proper w (a.through w default site).1 fun _ => True := by
  rw [h.through_eq default a]
  cases a with
  | get r => exact w.proper_getProperty r _
  | set r v => exact (w.proper_setProperty r _ v).bind fun _ _ => .pure trivial
  | getIndex r index => exact w.proper_getIndex r index
  | setIndex r index v => exact (w.proper_setIndex r index v).bind fun _ _ => .pure trivial

/-- A call through a site. The method that a specialized accessor runs takes the arguments as they are: it is the only
one for their number, and they satisfy its parameters. -/
theorem Bound.proper_call {name : String} {arity : Nat} (h : site.Bound w.classes (.method name arity))
    (default : Strategy) (a : Call arity) : Proper w (a.through w default site).1 fun _ => True := by
  have looked : Proper w (a.lookup w name) fun _ => True := w.proper_callMethod a.receiver name a.args
  cases hf : a.fastPath? w name with
  | none =>
    have strays : a.stray? w name = none := by
      rw [Call.stray?, hf]
      rfl
    rw [h.call_eq_lookup default strays]
    exact looked
  | some fast =>
    obtain ⟨m, params⟩ := fast
    obtain ⟨hn, hc, only, rfl, fit⟩ := Call.of_fastPath? hf
    rw [h.call_eq default hn hc]
    cases site.strategyUnder default with
    | universal => exact looked
    | specialized =>
      rw [Call.call_build_specialized hn, hf]
      -- the fast path checks the classes of the arguments itself, and the number of them by its choice
      have lone : m ∈ (w.classes.methods a.receiver.classRef name).filter (·.arity = a.args.length) := by
        rw [only]
        exact List.mem_singleton_self m
      obtain ⟨hm, arity⟩ := List.mem_filter.1 lone
      refine World.proper_offered (.method hm) ⟨?_, fun _ => fit⟩
      rw [← of_decide_eq_true arity, Classes.paramTypes, List.length_map, Method.arity]

end Site

end HostExpr
