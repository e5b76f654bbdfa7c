import HostExpr.Execution.Operator
import HostExpr.Proofs.Call.Quiet
import HostExpr.Member.Site

/-!
# Failures of the host end a computation

A body may report a failure of the host. A computation heeds such a failure if it then does nothing more and fails with
it: the store is as the call has left it, and the call is the latest event in the trace. Conversions call no body
(`Act.Spared`), so it does not matter that some of their failures are made other ones.
-/

namespace HostExpr

/-- The failure of the host that a body has reported. -/
def Event.hostError? : Event → Option HostError
  | .ran _ _ _ (.error (.host e)) => some e
  | _ => none

/-- An event that is a failure of the host is a call. -/
theorem Event.ran_of_hostError? {event : Event} {e : HostError} (h : event.hostError? = some e) :
    ∃ code receiver args, event = .ran code receiver args (.error (.host e)) := by
  unfold hostError? at h
  split at h
  · cases h
    exact ⟨_, _, _, rfl⟩
  · cases h

/-- No event is a failure of the host. -/
def Untroubled (events : List Event) : Prop := ∀ event ∈ events, event.hostError? = none

theorem Untroubled.nil : Untroubled [] := fun _ h => by cases h

theorem Untroubled.append {events more : List Event} (h : Untroubled events) (h' : Untroubled more) :
    Untroubled (events ++ more) := fun event he => (List.mem_append.1 he).elim (h event) (h' event)

theorem Untroubled.cons {event : Event} {events : List Event} (h : event.hostError? = none) (h' : Untroubled events) :
    Untroubled (event :: events) := by
  intro event' he
  rcases List.mem_cons.1 he with rfl | he
  · exact h
  · exact h' event' he

/-- From the first store on no body has reported a failure of the host before the last call. That one reports it, and
the second store is as the call has left it. -/
structure World.FailsWith (w : World) (e : HostError) (first last : Store) where
  code : Code
  receiver : Value
  args : List Value
  /-- What was asked of the outside before the call. -/
  older : List Event
  before : Store
  untroubled : Untroubled older
  trace : before.trace = older ++ first.trace
  called : w.invoke code receiver args before = (.error (.host e), last)

namespace World.FailsWith

variable {w : World} {e : HostError} {first last : Store}

/-- The call is the latest event. -/
theorem trace_last (h : w.FailsWith e first last) :
    last.trace = .ran h.code h.receiver h.args (.error (.host e)) :: (h.older ++ first.trace) := by
  have recorded := w.trace_invoke h.code h.receiver h.args h.before
  rw [h.called, h.trace] at recorded
  exact recorded

/-- Other events may have come before. -/
def after {start : Store} {new : List Event} (h : w.FailsWith e first last) (grown : first.trace = new ++ start.trace)
    (untroubled : Untroubled new) : w.FailsWith e start last where
  code := h.code
  receiver := h.receiver
  args := h.args
  older := h.older ++ new
  before := h.before
  untroubled := h.untroubled.append untroubled
  trace := by rw [h.trace, grown, List.append_assoc]
  called := h.called

end World.FailsWith

namespace Act

variable {α β : Type} {w : World}

/-- The computation calls no body that reports a failure of the host. -/
def Spared (x : Act α) : Prop := ∀ s, ∃ new, (x s).2.trace = new ++ s.trace ∧ Untroubled new

/-- If a body reports a failure of the host, the computation ends with the call and fails with the failure. -/
def Heeds (w : World) (x : Act α) : Prop :=
  ∀ s, (∃ new, (x s).2.trace = new ++ s.trace ∧ Untroubled new)
    ∨ ∃ e, (x s).1 = .error (.host e) ∧ Nonempty (w.FailsWith e s (x s).2)

theorem Quiet.spared {x : Act α} (h : Quiet x) : Spared x := fun s => ⟨[], (h s).1, .nil⟩

namespace Spared

variable {x : Act α}

theorem pure (a : α) : Spared (Pure.pure a) := (Quiet.pure a).spared

theorem throw (e : RuntimeError) : Spared (throw e : Act α) := fun _ => ⟨[], rfl, .nil⟩

theorem bind {f : α → Act β} (hx : Spared x) (hf : ∀ a, Spared (f a)) : Spared (x >>= f) := by
  intro s
  obtain ⟨new, grown, untroubled⟩ := hx s
  rw [bind_eq_bindCont]
  cases (x s).1 with
  | error e => exact ⟨new, grown, untroubled⟩
  | ok a =>
    obtain ⟨more, grown', untroubled'⟩ := hf a (x s).2
    refine ⟨more ++ new, ?_, untroubled'.append untroubled⟩
    show (f a (x s).2).2.trace = _
    rw [grown', grown, List.append_assoc]

/-- The same for each of some values. -/
theorem mapM {f : α → Act β} (hf : ∀ a, Spared (f a)) (as : List α) : Spared (as.mapM f) := by
  induction as with
  | nil =>
    rw [List.mapM_nil]
    exact .pure _
  | cons a as ih =>
    rw [List.mapM_cons]
    exact (hf a).bind fun _ => ih.bind fun _ => .pure _

end Spared

namespace Heeds

variable {x : Act α}

theorem of_spared (h : Spared x) : Heeds w x := fun s => .inl (h s)

theorem quiet (h : Quiet x) : Heeds w x := .of_spared h.spared

theorem pure (a : α) : Heeds w (Pure.pure a) := .of_spared (.pure a)

theorem throw (e : RuntimeError) : Heeds w (throw e : Act α) := .of_spared (.throw e)

/-- What would come behind a failure does not come. -/
theorem bind {f : α → Act β} (hx : Heeds w x) (hf : ∀ a, Heeds w (f a)) : Heeds w (x >>= f) := by
  intro s
  rw [bind_eq_bindCont]
  rcases hx s with ⟨new, grown, untroubled⟩ | ⟨e, failed, ended⟩
  · cases (x s).1 with
    | error e => exact .inl ⟨new, grown, untroubled⟩
    | ok a =>
      rcases hf a (x s).2 with ⟨more, grown', untroubled'⟩ | ⟨e, failed, ⟨ended⟩⟩
      · refine .inl ⟨more ++ new, ?_, untroubled'.append untroubled⟩
        show (f a (x s).2).2.trace = _
        rw [grown', grown, List.append_assoc]
      · exact .inr ⟨e, failed, ⟨ended.after grown untroubled⟩⟩
  · rw [failed]
    exact .inr ⟨e, rfl, ended⟩

end Heeds

end Act

open Act

namespace World

variable (w : World)

/-- A call of a body heeds the failure that the body reports. -/
theorem heeds_invoke (code : Code) (receiver : Value) (args : List Value) :
    Heeds w (w.invoke code receiver args) := by
  intro s
  by_cases failed : ∃ e, (w.invoke code receiver args s).1 = .error (.host e)
  · obtain ⟨e, failed⟩ := failed
    exact .inr ⟨e, failed, ⟨code, receiver, args, [], s, .nil, rfl, Prod.ext failed rfl⟩⟩
  · refine .inl ⟨[_], w.trace_invoke code receiver args s, .cons ?_ .nil⟩
    generalize (w.invoke code receiver args s).1 = outcome at failed ⊢
    unfold Event.hostError?
    split
    · rename_i e same
      injection same with _ _ _ same
      exact absurd ⟨e, same⟩ failed
    · rfl

/-! ## Conversions -/

section

variable (cs : Classes) (v : Value)

/-- The built-in conversions ask nothing of the outside. -/
theorem quiet_builtinConverter {b : Builtin} {c : Converter} (h : b.converter? cs = some c) : Quiet (c.run v) := by
  cases b with
  | string =>
    cases h
    exact .map _ (quiet_textOf cs v)
  | integer =>
    cases h
    unfold Converter.run toInt
    dsimp only
    repeat' split
    all_goals first | exact .pure _ | exact .throw nofun
  | long =>
    cases h
    unfold Converter.run toLong
    dsimp only
    repeat' split
    all_goals first | exact .pure _ | exact .throw nofun
  | double =>
    cases h
    unfold Converter.run toDouble
    dsimp only
    repeat' split
    all_goals first | exact .pure _ | exact .throw nofun
  | boolean =>
    cases h
    unfold Converter.run toBool
    dsimp only
    repeat' split
    all_goals first | exact .pure _ | exact .throw nofun
  | list =>
    cases h
    unfold Converter.run toList
    dsimp only
    split
    · exact (quiet_items _).bind fun _ => quiet_newList _
    · exact .pure _
    · exact .throw nofun
  | array =>
    cases h
    unfold Converter.run toArray
    dsimp only
    split
    · exact (quiet_items _).bind fun _ => quiet_newArray _ _
    · exact .pure _
    · exact .throw nofun
  | object => cases h
  | null => cases h
  | map => cases h
  | cls => cases h

end

/-- A conversion asks nothing of the outside but what it is itself. -/
theorem quiet_converter {target : ClassRef} {c : Converter} (found : w.converter? target = some c) (v : Value) :
    Quiet (c.run v) := by
  unfold converter? at found
  split at found
  · cases found
    intro s
    show (liftHeap _ _ s).2.trace = _ ∧ ∀ name, (liftHeap _ _ s).1 ≠ _
    unfold liftHeap
    split
    · exact ⟨rfl, nofun⟩
    · exact ⟨rfl, nofun⟩
  · split at found
    · exact quiet_builtinConverter w.classes v found
    · cases found

theorem spared_runConverter {c : Converter} {v : Value} (h : Quiet (c.run v)) (target : ClassRef) :
    Spared (runConverter c target v) := by
  intro s
  have silent := (h s).1
  unfold runConverter
  split
  · rename_i r s' hr
    rw [hr] at silent
    exact ⟨[_], congrArg (List.cons _) silent, .cons rfl .nil⟩
  · rename_i e s' hr
    rw [hr] at silent
    exact ⟨[_], congrArg (List.cons _) silent, .cons rfl .nil⟩
  · rename_i e s' _ hr
    rw [hr] at silent
    exact ⟨[], silent, .nil⟩

theorem spared_convert (v : Value) (target : ClassRef) : Spared (w.convert v target) := by
  unfold convert
  split
  · exact .pure _
  · split
    · rename_i c found
      split
      · exact spared_runConverter (w.quiet_converter found v) target
      · exact .throw _
    · exact .throw _

/-- The induction is on the type: the items of an array are converted to a part of it. -/
theorem spared_convertTo (w : World) (t : Ty) (v : Value) : Spared (w.convertTo t v) := by
  unfold convertTo
  split
  · rename_i item rest
    have refit (items : List Value) : Spared (do newArray item (← items.mapM (w.convertTo item))) :=
      (Spared.mapM (w.spared_convertTo item) items).bind fun items => (quiet_newArray item items).spared
    dsimp only
    split
    · split
      · exact .pure _
      · exact (quiet_items _).spared.bind refit
    · exact (quiet_items _).spared.bind refit
    · exact .pure _
    · exact .throw _
  · split
    · exact .pure _
    · exact w.spared_convert v _
termination_by sizeOf t

theorem spared_bindArgs (params : List Ty) (args : List Value) : Spared (w.bindArgs params args) := by
  refine .mapM (fun bound => ?_) _
  exact w.spared_convertTo bound.2 bound.1

theorem spared_truth (v : Value) : Spared (w.truth v) := by
  intro s
  unfold truth
  split
  · exact ⟨[], rfl, .nil⟩
  · exact ⟨[], rfl, .nil⟩
  · obtain ⟨new, grown, untroubled⟩ := w.spared_convert v (.builtin .boolean) s
    split
    · rename_i hc
      rw [hc] at grown
      exact ⟨new, grown, untroubled⟩
    · rename_i hc
      rw [hc] at grown
      exact ⟨new, grown, untroubled⟩

/-! ## Operators -/

theorem spared_spellsBool (text : Value) (b : Bool) : Spared (w.spellsBool text b) := by
  intro s
  obtain ⟨new, grown, untroubled⟩ := w.spared_convert text (.builtin .boolean) s
  unfold spellsBool
  split
  · rename_i hc
    rw [hc] at grown
    exact ⟨new, grown, untroubled⟩
  · rename_i hc
    rw [hc] at grown
    exact ⟨new, grown, untroubled⟩

theorem spared_looseEqual (left right : Value) : Spared (w.looseEqual left right) := by
  unfold looseEqual
  split
  · exact .pure _
  · split
    · exact w.spared_spellsBool _ _
    · exact w.spared_spellsBool _ _
    · split
      · exact .pure _
      · exact (quiet_equal _ _).spared
    · split
      · exact .pure _
      · exact (quiet_equal _ _).spared
    · exact (quiet_equal _ _).spared

theorem spared_compare (op : CompareOp) (left right : Value) : Spared (w.compare op left right) := by
  unfold compare
  split
  · exact w.spared_looseEqual left right
  · exact (w.spared_looseEqual left right).bind fun _ => .pure _
  · split
    · exact .pure _
    · split
      · exact .pure _
      · exact .throw _

theorem spared_arith (op : ArithOp) (left right : Value) : Spared (op.apply w.classes left right) := by
  unfold ArithOp.apply
  split
  · exact (Quiet.bind (quiet_textOf _ _) fun l => .bind (quiet_textOf _ _) fun r => .pure _).spared
  · split
    · exact .pure _
    · exact .throw _

/-! ## Accesses -/

/-- A body is run on arguments that are bound to parameters. -/
theorem heeds_boundCall (code : Code) (receiver : Value) (params : List Ty) (args : List Value) :
    Heeds w (do w.invoke code receiver (← w.bindArgs params args)) :=
  (Heeds.of_spared (w.spared_bindArgs params args)).bind fun args => w.heeds_invoke code receiver args

theorem heeds_callOverloaded (candidates : List Method) (owner : Ty) (receiver : Value) (name : String)
    (args : List Value) : Heeds w (w.callOverloaded candidates owner receiver name args) := by
  unfold callOverloaded
  split
  · exact .throw _
  · exact w.heeds_boundCall _ receiver _ args

theorem heeds_callMember (receiver : Value) (name : String) (args : List Value) :
    Heeds w (w.callMember receiver name args) := by
  unfold callMember
  split
  · exact .throw _
  · exact w.heeds_callOverloaded _ _ receiver name args

theorem heeds_callMethod (receiver : Value) (name : String) (args : List Value) :
    Heeds w (w.callMethod receiver name args) := by
  unfold callMethod
  split
  · exact .throw _
  · split
    · exact w.heeds_callMember _ name args
    · exact w.heeds_callOverloaded _ _ _ name args
  · exact w.heeds_callMember receiver name args

theorem heeds_construct (c : ClassRef) (args : List Value) (chosen : Option Nat) :
    Heeds w (w.construct c args chosen) := by
  unfold construct constructPlain
  dsimp only
  split
  · split
    · exact .quiet (quiet_newList _)
    · exact .quiet (quiet_newMap _)
    · exact .quiet (.map _ (quiet_newSlots _ _))
    · exact .throw _
  · split
    · exact w.heeds_boundCall _ _ _ args
    · exact w.heeds_callOverloaded _ _ _ _ args

theorem heeds_getMember (receiver : Value) (name : String) : Heeds w (w.getMember receiver name) := by
  unfold getMember
  split
  · split
    · exact .quiet (quiet_slot _ _)
    · exact w.heeds_invoke _ _ []
    · exact .throw _
  · split
    · exact w.heeds_invoke _ receiver []
    · exact .throw _

theorem heeds_getProperty (receiver : Value) (name : String) : Heeds w (w.getProperty receiver name) := by
  unfold getProperty
  split
  · exact .throw _
  · split
    · exact .pure _
    · exact w.heeds_getMember _ name
  · exact .quiet (.bind (quiet_mapGet? _ _) fun _ => .pure _)
  · exact w.heeds_getMember receiver name

/-- A setter is called with a value that is made to fit, and what it gives is dropped. -/
theorem heeds_setter (set : Code) (receiver : Value) (t : Ty) (v : Value) : Heeds w (do
    let _ ← w.invoke set receiver [← w.convertTo t v]) := by
  refine (Heeds.of_spared (w.spared_convertTo t v)).bind fun v => ?_
  exact (w.heeds_invoke set receiver [v]).bind fun _ => .pure _

theorem heeds_setMember (receiver : Value) (name : String) (v : Value) : Heeds w (w.setMember receiver name v) := by
  unfold setMember
  split
  · dsimp only
    split
    · exact (Heeds.of_spared (w.spared_convertTo _ v)).bind fun v => .quiet (quiet_setSlot _ _ v)
    · exact w.heeds_setter _ _ _ v
    · exact .throw _
  · split
    · refine (Heeds.of_spared (w.spared_bindArgs _ [v])).bind fun args => ?_
      exact (w.heeds_invoke _ receiver args).bind fun _ => .pure _
    · exact .throw _

theorem quiet_mapPut_done (h : Handle) (key v : Value) : Quiet (do
    let _ ← mapPut h key v) := .bind (quiet_mapPut h key v) fun _ => .pure _

theorem heeds_setProperty (receiver : Value) (name : String) (v : Value) :
    Heeds w (w.setProperty receiver name v) := by
  unfold setProperty
  split
  · exact .throw _
  · exact .quiet (quiet_mapPut_done _ _ v)
  · exact w.heeds_setMember receiver name v

theorem spared_position (index : Value) (length : Nat) : Spared (w.position index length) := by
  have checked (n : Int) :
      Spared (if 0 ≤ n ∧ n < length then pure n.toNat else throw (.indexOutOfBounds n length)) := by
    split
    · exact .pure _
    · exact .throw _
  unfold position
  split
  · exact checked _
  · exact Spared.bind (w.spared_convert index _) fun converted => checked _

theorem heeds_getItem (h : Handle) (index : Value) : Heeds w (w.getItem h index) := by
  unfold getItem
  refine (Heeds.quiet (quiet_items h)).bind fun items => (Heeds.of_spared (w.spared_position index _)).bind fun i => ?_
  exact .quiet (.bind (quiet_items h) fun _ => .pure _)

theorem heeds_setItem (h : Handle) (index v : Value) : Heeds w (w.setItem h index v) := by
  unfold setItem
  refine (Heeds.quiet (quiet_items h)).bind fun items => (Heeds.of_spared (w.spared_position index _)).bind fun i => ?_
  exact .quiet (.bind (quiet_items h) fun _ => quiet_setItems h _)

theorem heeds_getIndex (receiver index : Value) : Heeds w (w.getIndex receiver index) := by
  unfold getIndex
  split
  · exact .throw _
  · exact w.heeds_getItem _ index
  · exact w.heeds_getItem _ index
  · exact .quiet (.bind (quiet_mapGet? _ _) fun _ => .pure _)
  · exact .throw _

theorem heeds_setIndex (receiver index v : Value) : Heeds w (w.setIndex receiver index v) := by
  unfold setIndex
  split
  · exact .throw _
  · exact w.heeds_setItem _ index v
  · refine (Heeds.quiet (quiet_items _)).bind fun items => ?_
    refine (Heeds.of_spared (w.spared_position index _)).bind fun i => ?_
    refine (Heeds.of_spared (w.spared_convertTo _ v)).bind fun v => ?_
    exact .quiet (.bind (quiet_items _) fun _ => quiet_setItems _ _)
  · exact .quiet (quiet_mapPut_done _ _ v)
  · exact .throw _

end World

/-! ## Call sites -/

namespace Accessor

variable (w : World) (accessor : Accessor)

theorem heeds_get (name : String) (receiver : Value) : Heeds w (accessor.get w name receiver) := by
  unfold get
  split
  · exact .quiet (quiet_slot _ _)
  · exact w.heeds_invoke _ receiver []
  · exact w.heeds_invoke _ receiver []
  · exact .quiet (.bind (quiet_mapGet? _ _) fun _ => .pure _)
  · exact w.heeds_getProperty receiver name

theorem heeds_set (name : String) (receiver v : Value) : Heeds w (accessor.set w name receiver v) := by
  unfold set
  split
  · exact (Heeds.of_spared (w.spared_convertTo _ v)).bind fun v => .quiet (quiet_setSlot _ _ v)
  · exact w.heeds_setter _ _ _ v
  · exact .quiet (World.quiet_mapPut_done _ _ v)
  · exact w.heeds_setProperty receiver name v

theorem heeds_call (name : String) (receiver : Value) (args : List Value) :
    Heeds w (accessor.call w name receiver args) := by
  unfold call
  split
  · split
    · exact w.heeds_invoke _ receiver args
    · exact w.heeds_callMethod receiver name args
  · exact w.heeds_callMethod receiver name args

theorem heeds_getIndex (receiver index : Value) : Heeds w (accessor.getIndex w receiver index) := by
  unfold getIndex
  split
  · exact w.heeds_getItem _ index
  · exact w.heeds_getItem _ index
  · exact .quiet (.bind (quiet_mapGet? _ _) fun _ => .pure _)
  · exact w.heeds_getIndex receiver index

theorem heeds_setIndex (receiver index v : Value) : Heeds w (accessor.setIndex w receiver index v) := by
  unfold setIndex
  split
  · exact w.heeds_setItem _ index v
  · exact .quiet (World.quiet_mapPut_done _ _ v)
  · exact w.heeds_setIndex receiver index v

end Accessor

namespace Site

variable {w : World} {α : Type} (cs : Classes) (default : Strategy) (site : Site) (receiver : Value)

/-- What goes through a site heeds failures if the lookup without it and the accesses through accessors do. -/
theorem heeds_access {static : Act α} {through : Accessor → Act α} (hs : Heeds w static)
    (ht : ∀ accessor, Heeds w (through accessor)) : Heeds w (site.access cs default receiver static through).1 := by
  unfold access
  split
  · exact .throw _
  · exact hs
  · exact ht _

theorem heeds_accessIndex {through : Accessor → Act α} (ht : ∀ accessor, Heeds w (through accessor)) :
    Heeds w (site.accessIndex cs default receiver through).1 := by
  unfold accessIndex
  split
  · exact .throw _
  · exact ht _

end Site

end HostExpr
