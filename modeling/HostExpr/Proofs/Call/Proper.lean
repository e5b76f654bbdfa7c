import HostExpr.Member.Access
import HostExpr.Proofs.Call.Quiet
import HostExpr.Proofs.Site.Conformance

/-!
# Computations that call bodies well

A body is called well if the receiver offers it and the arguments are those that it declares: as many as it has
parameters, each one satisfying the type of its parameter as the receiver shows it. `Act.Proper` says of a computation
that all calls it adds to the trace are good ones, if the host's conversions keep what they promise; that it fails for
an input without a value only if a body has reported just that; and what it gives.
-/

namespace HostExpr

namespace World

variable (w : World)

/-! ## Calls -/

/-- What can be run on a receiver: code, with the types of its parameters as the receiver shows them. -/
inductive Offers : Value → Code → List Ty → Prop
  /-- The getter of a computed property of the receiver. -/
  | getter {receiver : Value} {name : String} {p : Property} {get : Code} {set : Option Code}
      (hp : w.classes.property? receiver.classRef name = some p) (hk : p.kind = .computed (some get) set) :
      Offers receiver get []
  /-- The setter of a computed property of the receiver. -/
  | setter {receiver : Value} {name : String} {p : Property} {get : Option Code} {set : Code}
      (hp : w.classes.property? receiver.classRef name = some p) (hk : p.kind = .computed get (some set)) :
      Offers receiver set [w.classes.resolve receiver.runtimeType p.type]
  /-- A method of the receiver. -/
  | method {receiver : Value} {name : String} {m : Method} (hm : m ∈ w.classes.methods receiver.classRef name) :
      Offers receiver m.code (w.classes.paramTypes receiver.runtimeType m)
  /-- A static method of the class that the receiver is. -/
  | staticMethod {c : ClassRef} {name : String} {m : Method} (hm : m ∈ w.classes.staticMethods c name) :
      Offers (.cls c) m.code (w.classes.paramTypes (.raw c) m)
  /-- A constructor of the class that the receiver is. -/
  | constructor {c : ClassRef} {m : Method} (hm : m ∈ (w.classes.get c).constructors) :
      Offers (.cls c) m.code (w.classes.paramTypes (.raw c) m)
  /-- A function of the host, which has no receiver. -/
  | function {f : Function} (hf : f ∈ w.functions) : Offers .null f.code f.params

/-- Code is called well: the receiver offers it, and the arguments are what it declares. -/
def CalledWell (code : Code) (receiver : Value) (args : List Value) : Prop :=
  ∃ params, w.Offers receiver code params ∧ args.length = params.length ∧ w.classes.satisfiesAll args params

/-- An event is proper if the call it records is a good one; conversions are not calls of a body. -/
def ProperEvent : Event → Prop
  | .ran code receiver args _ => w.CalledWell code receiver args
  | .converted .. => True

/-- Each conversion of the host, when it succeeds, gives a value of its target class. -/
def KeepsPromises : Prop :=
  ∀ c h, (c, h) ∈ w.handlers → ∀ v heap r, (h.convert v heap).1 = .ok r → w.classes.isSubclass r.classRef c

end World

/-- Some body has reported that an input has no value. -/
def Reported (events : List Event) (name : String) : Prop :=
  ∃ code receiver args, .ran code receiver args (.error (.unboundInput name)) ∈ events

theorem Reported.mono {events more : List Event} {name : String} (h : Reported events name)
    (within : events ⊆ more) : Reported more name := by
  obtain ⟨code, receiver, args, hm⟩ := h
  exact ⟨code, receiver, args, within hm⟩

namespace Act

variable {α β : Type} {w : World}

/-- All calls that the computation adds to the trace are good ones, if the host's conversions keep their promises. It
fails for an input without a value only if a body has reported that. What it gives has a property. -/
def Proper (w : World) (x : Act α) (Q : α → Prop) : Prop :=
  ∀ s, ∃ new, (x s).2.trace = new ++ s.trace
    ∧ (w.KeepsPromises → ∀ event ∈ new, w.ProperEvent event)
    ∧ (∀ name, (x s).1 = .error (.unboundInput name) → Reported new name)
    ∧ ∀ a, (x s).1 = .ok a → Q a

namespace Proper

variable {x : Act α} {Q Q' : α → Prop} {R : β → Prop}

/-- A quiet computation calls nothing. -/
theorem of_quiet (hx : Quiet x) (hq : ∀ s a, (x s).1 = .ok a → Q a) : Proper w x Q := by
  intro s
  refine ⟨[], (hx s).1, fun _ event he => ?_, fun name he => ?_, hq s⟩
  · cases he
  · exact absurd he ((hx s).2 name)

theorem quiet (hx : Quiet x) : Proper w x fun _ => True := of_quiet hx fun _ _ _ => trivial

theorem pure {a : α} (h : Q a) : Proper w (Pure.pure a) Q := by
  refine of_quiet (.pure a) fun s a' ha => ?_
  cases ha
  exact h

theorem throw {e : RuntimeError} (h : ∀ name, e ≠ .unboundInput name) : Proper w (throw e : Act α) Q := by
  refine of_quiet (.throw h) fun s a ha => ?_
  cases ha

/-- One computation after the other. What the second adds stands on top of the trace. -/
theorem bind {f : α → Act β} (hx : Proper w x Q) (hf : ∀ a, Q a → Proper w (f a) R) : Proper w (x >>= f) R := by
  intro s
  obtain ⟨new, grown, good, reported, gives⟩ := hx s
  rw [bind_eq_bindCont]
  cases hr : (x s).1 with
  | error e =>
    refine ⟨new, grown, good, fun name he => reported name ?_, fun a ha => by cases ha⟩
    rw [hr, Except.error.inj he]
  | ok a =>
    obtain ⟨more, grown', good', reported', gives'⟩ := hf a (gives a hr) (x s).2
    -- the events of the second part come in front, the latest first
    refine ⟨more ++ new, ?_, ?_, ?_, gives'⟩
    · show (f a (x s).2).2.trace = _
      rw [grown', grown, List.append_assoc]
    · intro promised event he
      rcases List.mem_append.1 he with he | he
      · exact good' promised event he
      · exact good promised event he
    · intro name he
      exact (reported' name he).mono (List.subset_append_left _ _)

theorem weaken (hx : Proper w x Q) (h : ∀ a, Q a → Q' a) : Proper w x Q' := by
  intro s
  obtain ⟨new, grown, good, reported, gives⟩ := hx s
  exact ⟨new, grown, good, reported, fun a ha => h a (gives a ha)⟩

theorem map {f : α → β} (hx : Proper w x Q) (h : ∀ a, Q a → R (f a)) : Proper w (f <$> x) R :=
  hx.bind fun a ha => .pure (h a ha)

/-- The same for each of some values. -/
theorem mapM {f : α → Act β} (hf : ∀ a, Proper w (f a) fun _ => True) (as : List α) :
    Proper w (as.mapM f) fun _ => True := by
  induction as with
  | nil =>
    rw [List.mapM_nil]
    exact .pure trivial
  | cons a as ih =>
    rw [List.mapM_cons]
    exact (hf a).bind fun _ _ => ih.bind fun _ _ => .pure trivial

end Proper

end Act

/-- A good call of a body. -/
theorem World.proper_invoke {w : World} {code : Code} {receiver : Value} {args : List Value}
    (called : w.KeepsPromises → w.CalledWell code receiver args) :
    Act.Proper w (w.invoke code receiver args) fun _ => True := by
  intro s
  refine ⟨[.ran code receiver args (w.invoke code receiver args s).1], w.trace_invoke code receiver args s, ?_, ?_,
    fun _ _ => trivial⟩
  · intro promised event he
    obtain rfl := List.mem_singleton.1 he
    exact called promised
  · intro name he
    rw [he]
    exact ⟨code, receiver, args, List.mem_singleton_self _⟩

end HostExpr
