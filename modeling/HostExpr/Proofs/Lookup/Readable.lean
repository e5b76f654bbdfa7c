import HostExpr.Proofs.Call.Quiet
import HostExpr.Proofs.Site.Transparency
import HostExpr.Proofs.Typing.Nodes

/-!
# Reading a property, as analyzed and as run

Under strong typing an analysis accepts the read of a property of a host class if a run finds something to read in an
instance of the class. The converse has one exception: a property that cannot be read hides, from a run only, the
method `getX` or `isX` that stands for it. `property_accepted_iff` gives both as an equivalence, at every site in
every state it can be in.
-/

namespace HostExpr

namespace Classes

/-- The most derived property of a name cannot be read, and there is a method that stands for reading it. -/
def hidesGetter (cs : Classes) (c : ClassRef) (name : String) : Bool :=
  (cs.property? c name).any (!·.isReadable) && (cs.getterMethod? c name).isSome

/-- A run has something to read under a name: a property that can be read or, if there is no property, a method that
stands for reading it. -/
def finds (cs : Classes) (c : ClassRef) (name : String) : Bool :=
  match cs.property? c name with
  | some p => p.isReadable
  | none => (cs.getterMethod? c name).isSome

/-- Where a property hides the method, there is nothing to read. -/
theorem finds_of_hidesGetter {cs : Classes} {c : ClassRef} {name : String} (h : cs.hidesGetter c name) :
    cs.finds c name = false := by
  unfold hidesGetter at h
  unfold finds
  obtain ⟨unreadable, -⟩ := Bool.and_eq_true_iff.1 h
  cases hp : cs.property? c name with
  | some p =>
    rw [hp] at unreadable
    simpa using unreadable
  | none =>
    rw [hp] at unreadable
    cases unreadable

end Classes

/-! ## Reading in a run -/

namespace World

variable (w : World)

/-- A request to run code is never without a trace. -/
theorem invoke_ne (code : Code) (receiver : Value) (args : List Value) (s : Store)
    (outcome : Except RuntimeError Value) : w.invoke code receiver args s ≠ (outcome, s) := by
  intro h
  have grown := w.trace_invoke code receiver args s
  rw [h] at grown
  exact List.cons_ne_self _ _ grown.symm

/-- The lookup in an instance of a host class fails on its own exactly where it finds nothing. -/
theorem getProperty_misses_iff (handle : Handle) (n : Nat) (name : String) (s : Store) :
    w.getProperty (.object handle (.host n)) name s
        = (.error (w.noSuchMember (.object handle (.host n)) name), s)
      ↔ w.classes.finds (.host n) name = false := by
  have dispatched : w.getProperty (.object handle (.host n)) name = w.getMember (.object handle (.host n)) name := rfl
  rw [dispatched]
  unfold getMember Classes.finds Property.isReadable
  have own : (Value.object handle (.host n)).classRef = .host n := rfl
  rw [own]
  cases hp : w.classes.property? (.host n) name with
  | some p =>
    dsimp only
    cases hk : p.kind with
    | slot i => exact ⟨fun h => (by cases h), fun h => (by cases h)⟩
    | computed get set =>
      cases get with
      -- a getter may fail, but not in this way: a call leaves its trace behind
      | some get => exact ⟨fun h => absurd h (w.invoke_ne get _ [] s _), fun h => (by cases h)⟩
      | none => exact ⟨fun _ => rfl, fun _ => rfl⟩
  | none =>
    dsimp only
    cases hg : w.classes.getterMethod? (.host n) name with
    | some getter => exact ⟨fun h => absurd h (w.invoke_ne getter.code _ [] s _), fun h => (by cases h)⟩
    | none => exact ⟨fun _ => rfl, fun _ => rfl⟩

end World

namespace Site

/-- A read through a site fails for want of the member, with nothing asked of the host: the trace and the heap are as
they were. -/
def Misses (w : World) (default : Strategy) (site : Site) (receiver : Value) (s : Store) : Prop :=
  (site.get w default receiver).1 s = (.error (w.noSuchMember receiver site.member.name), s)

/-- Reads through a site miss exactly where there is nothing to find, whatever the site has met before. -/
theorem Bound.misses_iff {w : World} {site : Site} {name : String} (h : site.Bound w.classes (.property name))
    (default : Strategy) (handle : Handle) (n : Nat) (s : Store) :
    site.Misses w default (.object handle (.host n)) s ↔ w.classes.finds (.host n) name = false := by
  have named : site.member.name = name := by
    rw [h.member_eq]
    rfl
  unfold Misses
  rw [h.get_eq default, named]
  exact w.getProperty_misses_iff handle n name s

end Site

/-! ## Reading in an analysis -/

namespace Context

open Typed Analysis

variable (ctx : Context)

/-- A read has a static type if a run finds something, and also where a property hides the method. -/
theorem isSome_readType?_iff {receiver : Ty} {c : ClassRef} (hc : receiver.cls = c) (name : String) :
    (ctx.readType? receiver name).isSome
      ↔ ctx.classes.finds c name ∨ ctx.classes.hidesGetter c name := by
  subst hc
  unfold readType? Classes.finds Classes.hidesGetter
  cases ctx.classes.property? receiver.cls name with
  | some p => cases hr : p.isReadable <;> simp [hr]
  | none => simp

/-- An expression of a host class is not known to evaluate to a class. -/
theorem classMeant?_eq_none {e : Syntax.Expr} {hint : Option Ty} {a b : AnalysisState} {receiver : Expr}
    (typed : ctx.expr e hint a = (.ok receiver, b)) {n : Nat} (hc : receiver.type.cls = .host n) :
    receiver.classMeant? = none := by
  have fits := (made_expr e hint typed).fits receiver receiver.self_mem_parts
  unfold Expr.classMeant?
  split
  · rename_i info c
    have class_type : info.type = .classOf c := fits
    have host : info.type.cls = .host n := hc
    rw [class_type] at host
    cases host
  · split
    · rename_i type
      rw [type] at hc
      cases hc
    · rfl

/-- Under strong typing the read of a host class has the type that is known of it, and is rejected otherwise. -/
theorem propertyType_host {receiver : Ty} {n : Nat} (hc : receiver.cls = .host n) {b : AnalysisState}
    (strong : b.env.strong) (name : String) (span : Span) :
    ctx.propertyType receiver name span b
      = match ctx.readType? receiver name with
        | some type => (.ok type, b)
        | none => ctx.unresolvedMember receiver name span b := by
  have asked : Analysis.strong b = (.ok true, b) := by
    rw [← strong]
    rfl
  unfold propertyType
  rw [hc]
  dsimp only
  rw [if_neg (fun h => by cases h.1)]
  cases ctx.readType? receiver name with
  | some type => rfl
  | none =>
    dsimp only
    rw [bind_eq_bindCont, asked]
    rfl

/-- Under strong typing a read of a host class is accepted where it has a static type. -/
theorem property_ok_iff {receiver : Expr} (hm : receiver.classMeant? = none) {n : Nat}
    (hc : receiver.type.cls = .host n) {b : AnalysisState} (strong : b.env.strong) (name : String) (span : Span) :
    (∃ r c, ctx.property receiver name span b = (.ok r, c)) ↔ (ctx.readType? receiver.type name).isSome := by
  have typed := ctx.propertyType_host hc strong name span
  unfold property
  rw [hm]
  dsimp only [Option.bind_eq_bind, Option.bind_none]
  rw [bind_eq_bindCont, typed]
  cases ctx.readType? receiver.type name with
  | some type => exact ⟨fun _ => rfl, fun _ => ⟨_, _, rfl⟩⟩
  | none =>
    refine ⟨?_, fun h => by cases h⟩
    rintro ⟨r, c, h⟩
    cases h

/-- **Reading a property, as analyzed and as run.** Under strong typing an analysis accepts the read of a member of an
expression of a host class, and knows the member of a root of the class, if and only if a read from an instance finds
something, through a site in any state and from any store, or a property that cannot be read hides the method that
stands for it. In the latter case the run finds nothing. -/
theorem property_accepted_iff {e : Syntax.Expr} {a b : AnalysisState} {receiver : Expr}
    (typed : ctx.expr e none a = (.ok receiver, b)) {n : Nat} (hc : receiver.type.cls = .host n)
    (strong : b.env.strong) {name : String} {site : Site} (bound : site.Bound ctx.classes (.property name))
    (default : Strategy) (handle : Handle) (s : Store) (span : Span) (hint : Option Ty) :
    let misses := site.Misses ctx.world default (.object handle (.host n)) s
    let hides := ctx.classes.hidesGetter (.host n) name
    ((∃ r c, ctx.property receiver name span b = (.ok r, c)) ↔ ¬ misses ∨ hides)
    ∧ (hides → misses)
    ∧ (ctx.qualified? a (.field span e name) = none →
        ctx.expr (.field span e name) hint a = ctx.property receiver name span b)
    ∧ ∀ env root, env.context? = some root → root.cls = .host n →
        ((ctx.rootMemberType? env name).isSome ↔ ¬ misses ∨ hides) := by
  intro misses hides
  -- both sides come down to whether the class finds the name: the site by its accessors, analysis by its rules
  have missing : misses ↔ ctx.classes.finds (.host n) name = false := bound.misses_iff default handle n s
  have found : ¬ misses ↔ ctx.classes.finds (.host n) name = true := by
    rw [missing, Bool.not_eq_false]
  refine ⟨?_, ?_, ?_, ?_⟩
  · rw [ctx.property_ok_iff (ctx.classMeant?_eq_none typed hc) hc strong, ctx.isSome_readType?_iff hc, found]
  · intro hidden
    rw [missing]
    exact Classes.finds_of_hidesGetter hidden
  · intro unqualified
    rw [expr, get_bind, unqualified]
    dsimp only
    rw [bind_eq_bindCont, typed]
    rfl
  · intro env root given hr
    have known : ctx.rootMemberType? env name = ctx.readType? root name := by
      unfold rootMemberType?
      rw [given]
      rfl
    rw [known, ctx.isSome_readType?_iff hr, found]

end Context

/-! ## A property that can only be written -/

/-- A class of boxes with a property that can only be written, and a method that stands for reading it. -/
def boxes : Classes where
  defs := [{ ClassDef.bare "Box" none (some (.builtin .object)) with
    properties := [⟨"x", .raw (.builtin .integer), .computed none (some (.host 0))⟩]
    methods := [⟨"getX", [], .raw (.builtin .integer), "Box", .host 1⟩] }]

/-- A host with boxes. -/
def boxHost : World := { World.bare with classes := boxes }

/-- What an analysis knows of boxes. -/
def boxContext : Context := ⟨boxHost, .builtin, [], "b.x".toList⟩

/-- The state before the analysis of a program with a box as its input. -/
def boxState : AnalysisState :=
  .ofEnvironment (.ofConfig { Config.default with strong := true, inputs := [("b", .raw (.host 0))] })

/-- The read is accepted, and misses when it is run. -/
theorem property_accepted_iff_boxes :
    (∃ r c, boxContext.expr (.field ⟨0, 3⟩ (.ident ⟨0, 1⟩ "b") "x") none boxState = (.ok r, c))
    ∧ (Site.fresh (.property "x") none).Misses boxHost .specialized (.object 0 (.host 0)) (.ofHeap .empty) := by
  have typed : boxContext.expr (.ident ⟨0, 1⟩ "b") none boxState
      = (.ok (.input ⟨.raw (.host 0), ⟨0, 1⟩⟩ "b" 0), { boxState with nextSite := 1 }) := rfl
  have hidden : boxes.hidesGetter (.host 0) "x" := by decide
  have unqualified : boxContext.qualified? boxState (.field ⟨0, 3⟩ (.ident ⟨0, 1⟩ "b") "x") = none := by decide
  obtain ⟨accepted, missing, whole, -⟩ := boxContext.property_accepted_iff typed rfl rfl
    (Site.Bound.fresh boxes (.property "x") none) .specialized 0 (.ofHeap .empty) ⟨0, 3⟩ none
  exact ⟨whole unqualified ▸ accepted.2 (.inr hidden), missing hidden⟩

end HostExpr
