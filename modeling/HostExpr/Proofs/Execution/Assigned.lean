import HostExpr.Proofs.Call.Erasure
import HostExpr.Proofs.Conversion.Idempotent
import HostExpr.Proofs.Lookup.ReadBack

/-!
# What an assignment evaluates to

An assignment evaluates to the value that it hands to its target. A slot and an array make this value fit their own type
first, so that what is read from the target afterwards may be another value: what comes of the conversion. They are the
same where the value needs no conversion, as it is when analysis knows the receiver as the run finds it: then the value
has been converted to the type of the target already. `reads_assigned` says so for every assignment in a compiled
program.
-/

namespace HostExpr

open Typed

namespace Setting

variable (σ : Setting)

/-- The type that a place makes values fit when they are stored in it. -/
def fitted? (s : Running) : Place → Option Ty
  | .name (.input _ name _) => if s.bindings.has name then none else σ.world.classes.slotType? σ.root name
  | .name _ => none
  | .property receiver name _ => σ.world.classes.slotType? receiver name
  | .index receiver _ _ => receiver.itemType?

/-- The place holds what is stored in it: a variable, a binding, or what is kept with the receiver or with the root. -/
inductive Keeps (s : Running) : Place → Prop
  | declared (i : Info) (name : String) : Keeps s (.name (.declared i name))
  | binding {i : Info} {name : String} {site : Nat} (bound : s.bindings.has name) : Keeps s (.name (.input i name site))
  | member {i : Info} {name : String} {site : Nat} (kept : σ.world.KeepsProperty s.store.heap σ.root name) :
      Keeps s (.name (.input i name site))
  | property {receiver : Value} {name : String} {site : Nat}
      (kept : σ.world.KeepsProperty s.store.heap receiver name) : Keeps s (.property receiver name site)
  | index {receiver position : Value} {site : Nat} (kept : σ.world.KeepsIndex s.store receiver position) :
      Keeps s (.index receiver position site)

/-- The value needs no conversion to be stored in the place. -/
def Fits (s : Running) (place : Place) (v : Value) : Prop :=
  ∀ t, σ.fitted? s place = some t → σ.world.classes.keeps v t

variable {σ} {p : Program} {env : Environment} {s s' : Running} {v : Value}

/-! ## Places that are read after they were written -/

section

variable {receiver position : Value} {name : String} {site : Nat}

/-- A property that is written through a call site is written by the lookup. -/
theorem of_setProperty_ok (accessed : p.memberAt site = .property name) (bound : p.Binds σ.world.classes s.sites)
    (written : σ.setProperty receiver name site v s = (.ok (), s')) :
    σ.world.setProperty receiver name v s.store = (.ok (), s'.store) ∧ p.Binds σ.world.classes s'.sites
      ∧ s'.bindings = s.bindings := by
  refine Exec.of_atSite_ok accessed (fun given own => ?_) (fun given own => own.set_eq σ.strategy receiver v) bound written
  exact own.through σ.strategy (.set receiver v)

theorem of_setIndex_ok (accessed : p.memberAt site = .index) (bound : p.Binds σ.world.classes s.sites)
    (written : σ.setIndex receiver position site v s = (.ok (), s')) :
    σ.world.setIndex receiver position v s.store = (.ok (), s'.store) ∧ p.Binds σ.world.classes s'.sites
      ∧ s'.bindings = s.bindings := by
  refine Exec.of_atSite_ok accessed (fun given own => ?_) (fun given own => own.setIndex_eq σ.strategy receiver position v)
    bound written
  exact own.through σ.strategy (.setIndex receiver position v)

/-- A property is read through a call site as it was written through it. -/
theorem getProperty_of_setProperty (accessed : p.memberAt site = .property name)
    (bound : p.Binds σ.world.classes s.sites) (written : σ.setProperty receiver name site v s = (.ok (), s'))
    (kept : σ.world.KeepsProperty s'.store.heap receiver name) :
    ∃ r s'', σ.world.Becomes s.store.heap (σ.world.classes.slotType? receiver name) v r
      ∧ σ.getProperty receiver name site s' = (.ok r, s'') := by
  obtain ⟨written, bound', -⟩ := of_setProperty_ok accessed bound written
  obtain ⟨r, becomes, read⟩ := World.getProperty_of_setProperty written kept
  refine ⟨r, ?_⟩
  obtain ⟨s'', looked⟩ : ∃ s'', σ.getProperty receiver name site s' = (.ok r, s'') := by
    refine Exec.atSite_of_ok accessed (fun given own => ?_) (fun given own => own.get_eq σ.strategy receiver) bound' read
    exact own.through σ.strategy (.get receiver)
  exact ⟨s'', becomes, looked⟩

/-- What stands at an index is read through a call site as it was written through it. -/
theorem getIndex_of_setIndex (accessed : p.memberAt site = .index) (bound : p.Binds σ.world.classes s.sites)
    (written : σ.setIndex receiver position site v s = (.ok (), s'))
    (kept : σ.world.KeepsIndex s'.store receiver position) :
    ∃ r s'', σ.world.Becomes s.store.heap receiver.itemType? v r
      ∧ σ.getIndex receiver position site s' = (.ok r, s'') := by
  obtain ⟨written, bound', -⟩ := of_setIndex_ok accessed bound written
  obtain ⟨r, store, becomes, read⟩ := World.getIndex_of_setIndex written kept
  refine ⟨r, ?_⟩
  obtain ⟨s'', looked⟩ : ∃ s'', σ.getIndex receiver position site s' = (.ok r, s'') := by
    refine Exec.atSite_of_ok accessed (fun given own => ?_)
      (fun given own => own.getIndex_eq σ.strategy receiver position) bound' read
    exact own.through σ.strategy (.getIndex receiver position)
  exact ⟨s'', becomes, looked⟩

end

/-- What is stored in an input is bound to its name, or else it is a property of the root, and the name is not bound. -/
theorem of_writeInput_ok {name : String} {site : Nat} (written : σ.writeInput name site v s = (.ok (), s')) :
    s'.bindings.get? name = some v
      ∨ s.bindings.has name = false ∧ σ.setProperty σ.root name site v s = (.ok (), s') := by
  have bind {s : Running} (h : Exec.bind name v s = (.ok (), s')) : s'.bindings.get? name = some v := by
    cases h
    simp
  unfold writeInput at written
  split at written
  next => exact .inl (bind written)
  next free =>
    split at written
    next =>
      split at written
      next => exact .inl (bind written)
      next => cases written
    next => exact .inr ⟨by simp_all, written⟩

/-- An input is read as it was written. -/
theorem readInput_of_writeInput {i : Info} {name : String} {site : Nat} (accessed : p.memberAt site = .property name)
    (bound : p.Binds σ.world.classes s.sites) (written : σ.writeInput name site v s = (.ok (), s'))
    (kept : σ.Keeps s' (.name (.input i name site))) :
    ∃ r s'', σ.world.Becomes s.store.heap (σ.fitted? s' (.name (.input i name site))) v r
      ∧ σ.readInput name site s' = (.ok r, s'') := by
  rcases of_writeInput_ok written with named | ⟨free, stored⟩
  · refine ⟨v, s', ?_, ?_⟩
    · have has : s'.bindings.has name := by simp [Table.has, named]
      simp [fitted?, has, World.Becomes]
    · unfold readInput
      rw [named]
  · have free' : s'.bindings.has name = false := by
      rw [(of_setProperty_ok accessed bound stored).2.2]
      exact free
    -- a name is written to the root only if it is not bound, and the write leaves it so
    cases kept with
    | binding has =>
      rw [free'] at has
      cases has
    | member kept =>
      have there : σ.root.isNull = false := by
        cases hr : σ.root with
        | null => rw [hr] at kept; cases kept
        | _ => rfl
      obtain ⟨r, s'', becomes, read⟩ := getProperty_of_setProperty accessed bound stored kept
      refine ⟨r, s'', ?_, ?_⟩
      · simpa [fitted?, free'] using becomes
      · have unbound : s'.bindings.get? name = none := by simpa [Table.has] using free'
        unfold readInput
        simp [unbound, there, read]

/-- A place is read as it was written, where names are read as expressions. -/
theorem readPlace_of_writePlace (wm : p.WellMade σ.world env) {place : Place} (hp : place.Of p) {target : Expr}
    (named : ∀ e, place = .name e → e = target) (bound : p.Binds σ.world.classes s.sites)
    (written : σ.writePlace v place s = (.ok (), s')) (kept : σ.Keeps s' place) :
    ∃ r s'', σ.world.Becomes s.store.heap (σ.fitted? s' place) v r
      ∧ σ.readPlace (σ.value target) place s' = (.ok r, s'') := by
  cases place with
  | name e =>
    obtain rfl := named e rfl
    -- an input is read back from the bindings or from the root, whichever took the value
    have input {i : Info} {name : String} {site : Nat} (hp : .input i name site ∈ Stmt.partsAll p.body)
        (written : σ.writeInput name site v s = (.ok (), s')) (kept : σ.Keeps s' (.name (.input i name site))) :
        ∃ r s'', σ.world.Becomes s.store.heap (σ.fitted? s' (.name (.input i name site))) v r
          ∧ σ.value (.input i name site) s' = (.ok r, s'') := by
      unfold value
      exact readInput_of_writeInput (wm.memberAt_eq hp rfl) bound written kept
    cases kept with
    | declared i name =>
      refine ⟨v, s', rfl, ?_⟩
      show σ.value (.declared i name) s' = _
      unfold value
      exact Exec.readName_of_writeName written
    | binding has => exact input hp written (.binding has)
    | member kept => exact input hp written (.member kept)
  | property receiver name site =>
    cases kept with
    | property kept => exact getProperty_of_setProperty hp bound written kept
  | index receiver position site =>
    cases kept with
    | index kept => exact getIndex_of_setIndex hp bound written kept

end Setting

/-! ## Receivers that analysis knows -/

/-- What a conversion gives needs no conversion to the same type. -/
theorem World.keeps_of_convertTo {w : World} (promised : w.KeepsPromises) {t : Ty} {v r : Value} {s s' : Store}
    (h : w.convertTo t v s = (.ok r, s')) : w.classes.keeps r t := by
  obtain ⟨-, -, -, -, gives⟩ := w.proper_convertTo t v s
  have fits : w.classes.satisfies r t := gives r (congrArg Prod.fst h) promised
  simp [Classes.keeps, fits, posesAs_convertTo h]

/-- Every value can stand as an object as it is. -/
theorem Classes.keeps_of_isDynamic {cs : Classes} (v : Value) {t : Ty} (top : t.isDynamic) : cs.keeps v t := by
  obtain ⟨c, as⟩ := t
  obtain rfl : c = .builtin .object := of_decide_eq_true top
  have plain : cs.posesAs v (.mk (.builtin .object) as) = false := by
    unfold posesAs
    split
    next same => cases same
    next => rfl
  simp [keeps, satisfies, Ty.isDynamic, Ty.cls, ClassRef.isDynamic, plain]

/-- What is converted to the type that a target stores, if anything is known of it, needs no conversion to this type. -/
theorem Setting.keeps_of_stored {σ : Setting} (promised : σ.world.KeepsPromises) {t : Ty} {v r : Value} {s s' : Running}
    (h : σ.convert? v (Context.storedType? t) s = (.ok r, s')) : σ.world.classes.keeps r t := by
  unfold Context.storedType? at h
  by_cases top : t.isDynamic
  · exact Classes.keeps_of_isDynamic r top
  · rw [if_neg top] at h
    exact World.keeps_of_convertTo promised (Exec.of_act_ok h).1

/-- Analysis knows the receiver of a target as a run finds it: an instance of just its static class, whose property is
declared with a type that is the same with the type arguments of the static type and without them, or an array of just
its static type. -/
inductive Classes.Knows (cs : Classes) : Expr → Place → Prop
  | slot {i : Info} {receiver : Expr} {name : String} {site : Nat} {h : Handle} {c : ClassRef}
      (shown : receiver.type.cls = c)
      (same : ∀ p, cs.property? c name = some p → cs.resolve (.raw c) p.type = cs.resolve receiver.type p.type) :
      Knows cs (.property i receiver name site) (.property (.object h c) name site)
  | element {i : Info} {receiver position : Expr} {site : Nat} {h : Handle} {item : Ty} {index : Value}
      (shown : receiver.type = .arrayOf item) :
      Knows cs (.index i receiver position site) (.index (.array h item) index site)

namespace Context

variable {ctx : Context} {config : Config} {i : Info} {receiver position : Expr} {name : String} {site : Nat}

open Analysis

/-- The target of an assignment that is no variable stores its own type. -/
theorem stored_of_rule {op : AssignOp} {target v : Expr} {stored : Option Ty}
    (rule : ctx.Rule config (.assign i target op v stored)) (member : ∀ j name, target ≠ .declared j name) :
    stored = storedType? target.type := by
  cases op with
  | plain =>
    obtain ⟨-, takes⟩ := rule
    cases takes with
    | written | bare => rfl
    | declared name span => exact absurd rfl (member _ name)
  | compound op =>
    obtain ⟨result, -, same, -⟩ := rule
    exact same

/-- A property that has a slot is read with the type that its class declares. -/
theorem type_of_rule_property {c : ClassRef} (known : receiver.type.cls = c) {p : Property} {slot : Nat}
    (found : ctx.classes.property? c name = some p) (kind : p.kind = .slot slot)
    (rule : ctx.Rule config (.property i receiver name site)) (own : ctx.Rule config receiver) :
    i.type = ctx.classes.resolve receiver.type p.type := by
  -- built-in classes have no slots
  obtain ⟨n, rfl⟩ := Classes.host_of_isWritable found (by simp [Property.isWritable, kind])
  have readable : ctx.readType? receiver.type name = some (ctx.classes.resolve receiver.type p.type) := by
    unfold readType?
    rw [known, found]
    simp [Property.isReadable, kind]
  rcases rule with ⟨a, b, -, typed⟩ | ⟨bare, typed⟩
  · unfold propertyType at typed
    rw [known, readable] at typed
    dsimp only at typed
    rw [if_neg (fun h => by cases h.1)] at typed
    exact (Except.ok.inj (congrArg Prod.fst typed)).symm
  · cases receiver with
    | this j =>
      have own : j.type = config.context?.getD .object := own
      obtain ⟨root, context, typed⟩ := Option.bind_eq_some_iff.1 typed
      rw [context] at own
      have same : (Expr.this j).type = root := own
      rw [← same, readable] at typed
      exact (Option.some.inj typed).symm
    | _ => cases bare

/-- An element of an array is read with the type of its items. -/
theorem type_of_rule_index {item : Ty} (known : receiver.type = .arrayOf item)
    (rule : ctx.Rule config (.index i receiver position site)) : i.type = item := by
  obtain ⟨a, b, -, typed⟩ := rule
  rw [known] at typed
  exact (Except.ok.inj (congrArg Prod.fst typed)).symm

end Context

/-! ## Assignments of a program -/

namespace Setting

variable {σ : Setting} {s s' : Running} {i : Info} {target v : Expr} {op : AssignOp} {stored : Option Ty} {new : Value}

/-- What comes of an assignment comes of its steps: the place, the value that is to be stored, as the target stores it,
and the write. -/
theorem of_value_assign (h : σ.value (.assign i target op v stored) s = (.ok new, s')) :
    ∃ place s₁ old s₂ s₃, σ.place target s = (.ok place, s₁)
      ∧ σ.combine op (σ.readPlace (σ.deeper (σ.value target)) place) (σ.deeper (σ.value v)) s₁ = (.ok old, s₂)
      ∧ σ.convert? old stored s₂ = (.ok new, s₃) ∧ σ.writePlace new place s₃ = (.ok (), s') := by
  unfold value at h
  obtain ⟨place, s₁, placed, h⟩ := Exec.of_bind_ok h
  obtain ⟨old, s₂, combined, h⟩ := Exec.of_bind_ok h
  obtain ⟨fitted, s₃, converted, h⟩ := Exec.of_bind_ok h
  obtain ⟨_, s₄, written, h⟩ := Exec.of_bind_ok h
  obtain ⟨rfl, rfl⟩ := Exec.of_pure_ok h
  exact ⟨place, s₁, old, s₂, s₃, placed, combined, converted, written⟩

/-- A place that is a name is that of the name. -/
theorem eq_of_place_name {e : Expr} (h : σ.place target s = (.ok (.name e), s')) : e = target := by
  unfold place at h
  split at h
  · obtain ⟨r, s₁, -, h⟩ := Exec.of_bind_ok h
    cases h
  · obtain ⟨r, s₁, -, h⟩ := Exec.of_bind_ok h
    obtain ⟨index, s₂, -, h⟩ := Exec.of_bind_ok h
    cases h
  · cases h
    rfl

/-- What is assigned to a target whose receiver analysis knows needs no further conversion. -/
theorem fits_of_knows {ctx : Context} {config : Config} (hσ : σ.world = ctx.world) (promised : σ.world.KeepsPromises)
    (rule : ctx.Rule config (.assign i target op v stored)) (rules : ∀ e ∈ target.parts, ctx.Rule config e)
    {old : Value} {s₁ : Running} (converted : σ.convert? old stored s = (.ok new, s₁)) {place : Place}
    (kept : σ.Keeps s' place) (knows : σ.world.classes.Knows target place) : σ.Fits s' place new := by
  have classes : σ.world.classes = ctx.classes := congrArg World.classes hσ
  have own := rules _ target.self_mem_parts
  have inner {e : Expr} (he : e ∈ target.inner) : ctx.Rule config e := rules e (List.mem_cons_of_mem _ he)
  intro t fitted
  -- what analysis has the value stored as is the type of the target; it remains that the run asks for no other
  suffices h : t = target.type by
    have member : ∀ j name, target ≠ .declared j name := by
      rintro j name rfl
      cases knows
    rw [Context.stored_of_rule rule member] at converted
    rw [h]
    exact keeps_of_stored promised converted
  cases knows with
  | @slot i receiver name site h c shown same =>
    cases kept with
    | property kept =>
      cases kept with
      | @slot _ _ _ p _ found kind inside =>
        have fitted : (σ.world.classes.property? c name).map
            (fun p => σ.world.classes.resolve (Value.object h c).runtimeType p.type) = some t := fitted
        rw [classes] at found fitted same
        rw [found] at fitted
        -- the run resolves the type of the field against the class of the receiver, analysis against its static type
        calc t = ctx.classes.resolve (.raw c) p.type := (Option.some.inj fitted).symm
          _ = ctx.classes.resolve receiver.type p.type := same p found
          _ = i.type := (Context.type_of_rule_property shown found kind own (inner receiver.self_mem_parts)).symm
  | element shown =>
    cases fitted
    exact (Context.type_of_rule_index shown own).symm

end Setting

/-- **What an assignment evaluates to.** Let an assignment in a compiled program or setter, plain or combined with the
old value, come to a value, under whatever strategy, root and bindings and in whatever state of the call sites. If its
target is a variable, a slot of an instance, an item of a list or an array or an entry of a map, then the same place can
be read afterwards, and gives what came of the value when it was made to fit the type of the slot or of the items. That
is the value itself if it needed no conversion; and it needed none if analysis knew the receiver as the run found it and
the host's conversions give what they promise. -/
theorem Engine.reads_assigned {e : Engine} {source : String} {isSetter : Bool} {config : Config} {x : Expression}
    (h : e.compile source isSetter config = .ok x) {i : Info} {target v : Expr} {op : AssignOp} {stored : Option Ty}
    (part : .assign i target op v stored ∈ Stmt.partsAll x.program.body) {σ : Setting} (hσ : σ.world = e.world)
    {s s' : Running} (sited : x.program.Binds e.world.classes s.sites) {new : Value}
    (assigned : σ.value (.assign i target op v stored) s = (.ok new, s')) :
    ∃ place s₁ s₂, σ.place target s = (.ok place, s₁) ∧ σ.writePlace new place s₂ = (.ok (), s')
      ∧ (σ.Keeps s' place → ∃ r s'', σ.readPlace (σ.value target) place s' = (.ok r, s'')
        ∧ e.world.Becomes s₂.store.heap (σ.fitted? s' place) new r
        ∧ (σ.Fits s' place new → r = new)
        ∧ (e.world.KeepsPromises → e.world.classes.Knows target place → r = new)) := by
  have wm := wellMade_of_compile h
  have rules := (rule_of_compile h).1
  rw [← hσ] at wm sited ⊢
  have within := Stmt.parts_subset_all _ part
  obtain ⟨left, right⟩ := List.append_subset.1 (List.Subset.trans (List.subset_cons_self _ _) within)
  obtain ⟨place, s₁, old, s₂, s₃, placed, combined, converted, written⟩ := Setting.of_value_assign assigned
  refine ⟨place, s₁, s₃, placed, written, fun kept => ?_⟩
  -- the call sites are bound as they should be when the value is stored
  obtain ⟨sited₁, hp⟩ := (Setting.proper_place wm target left).of_ok sited placed
  have reading := Setting.proper_readPlace (Setting.proper_deeper (Setting.proper_value wm target left)) hp
  have operand := Setting.proper_deeper (Setting.proper_value wm v right)
  obtain ⟨sited₂, -⟩ := (Setting.proper_combine op reading operand).of_ok sited₁ combined
  obtain ⟨sited₃, -⟩ := (σ.proper_convert? x.program old stored).of_ok sited₂ converted
  have named : ∀ e, place = .name e → e = target := by
    rintro e rfl
    exact Setting.eq_of_place_name placed
  obtain ⟨r, s'', becomes, read⟩ := Setting.readPlace_of_writePlace wm hp named sited₃ written kept
  have unchanged (fits : σ.Fits s' place new) : r = new := by
    cases fitted : σ.fitted? s' place with
    | none =>
      rw [fitted] at becomes
      exact becomes
    | some t =>
      rw [fitted] at becomes
      obtain ⟨trace, after, becomes⟩ := becomes
      rw [World.convertTo_eq_of_keeps (fits t fitted)] at becomes
      exact (Except.ok.inj (congrArg Prod.fst becomes)).symm
  refine ⟨r, s'', read, becomes, unchanged, fun promised knows => unchanged ?_⟩
  have parts : ∀ n ∈ target.parts, (e.context source).Rule config n := fun n hn => rules n (left hn)
  exact Setting.fits_of_knows hσ promised (rules _ part) parts converted kept knows

/-! ## An item of an array -/

/-- The first item of an array of integers. -/
def firstItem (i j k : Info) (input site : Nat) : Expr := .index i (.input j "a" input) (.constant k (.int 0)) site

/-- The array, with one item. -/
def oneItem (x : Expression) : Running :=
  .start (.ofHeap ⟨#[.items [.int 1]]⟩) [("a", .array 0 .integer)] x.sites

/-- The program assigns to the first item of an array that analysis knows to be one of integers, which gives 5. -/
def assignsFirstItem (x : Expression) : Bool :=
  match x.program.body with
  | [.expr (.assign i (.index j (.input k "a" input) (.constant l (.int 0)) site) .plain v stored)] =>
    k.type = .arrayOf .integer &&
      match Setting.bare.value (.assign i (firstItem j k l input site) .plain v stored) (oneItem x) with
      | (.ok new, s) => new = .int 5 && s.store.heap.items 0 = [.int 5]
      | _ => false
  | _ => false

/-- A text that is assigned to the first item of an array of integers is converted, and the assignment evaluates to the
integer that is then read. -/
theorem reads_assigned_firstItem :
    let config : Config := { Config.default with inputs := [("a", .arrayOf .integer)] }
    ∃ x i j k l input site v stored, Engine.bare.compile "a[0] = '5'" false config = .ok x
      ∧ x.program.body = [.expr (.assign i (firstItem j k l input site) .plain v stored)]
      ∧ ∃ s' place s'', Setting.bare.value (.assign i (firstItem j k l input site) .plain v stored) (oneItem x)
          = (.ok (.int 5), s')
        ∧ Setting.bare.place (firstItem j k l input site) (oneItem x) = (.ok place, oneItem x)
        ∧ Setting.bare.readPlace (Setting.bare.value (firstItem j k l input site)) place s' = (.ok (.int 5), s'') := by
  intro config
  have found : (Engine.bare.compile "a[0] = '5'" false config).toOption.any assignsFirstItem := by decide +kernel
  obtain ⟨x, hx, shape⟩ := exists_ok_of_any found
  unfold assignsFirstItem at shape
  split at shape
  · rename_i i j k input l site v stored body
    obtain ⟨known, ran⟩ := Bool.and_eq_true_iff.1 shape
    split at ran
    · rename_i new s' assigned
      obtain ⟨gives, items⟩ := Bool.and_eq_true_iff.1 ran
      cases of_decide_eq_true gives
      have items : s'.store.heap.items 0 = [.int 5] := of_decide_eq_true items
      have sited : x.program.Binds Setting.bare.world.classes (oneItem x).sites := by
        obtain ⟨body, program, env, -, -, rfl⟩ := Engine.compile_ok hx
        exact Expression.binds_fresh program env false Engine.bare.limits _
      have part : .assign i (firstItem j k l input site) .plain v stored ∈ Stmt.partsAll x.program.body := by
        rw [body]
        exact List.mem_cons_self
      have evaluated : Setting.bare.place (firstItem j k l input site) (oneItem x)
        = (.ok (.index (.array 0 .integer) (.int 0) site), oneItem x) := rfl
      obtain ⟨place, s₁, s₂, placed, -, read⟩ := Engine.reads_assigned hx part rfl sited assigned
      rw [evaluated] at placed
      cases placed
      have inside : (World.bare.position (.int 0) (s'.store.heap.items 0).length s'.store).1 = .ok 0 := by
        rw [items]
        rfl
      have kept : Setting.bare.Keeps s' (.index (.array 0 .integer) (.int 0) site) :=
        .index (.element .integer (.inl rfl) inside)
      have knows : Setting.bare.world.classes.Knows (firstItem j k l input site)
          (.index (.array 0 .integer) (.int 0) site) := .element (of_decide_eq_true known)
      obtain ⟨r, s'', read, -, -, same⟩ := read kept
      rw [same nofun knows] at read
      exact ⟨x, i, j, k, l, input, site, v, stored, hx, body, s', _, s'', assigned, evaluated, read⟩
    · cases ran
  · cases shape

/-- Where analysis does not know the array, the assignment evaluates to the text, and the array holds the integer. -/
example :
    (Engine.bare.compile "v = (a[0] = '5')" false .default).toOption.any fun x =>
      let after := (Setting.bare.runProgram x.program (oneItem x)).2
      after.bindings.get? "v" = some (.str "5") && after.store.heap.items 0 = [.int 5] := by
  decide +kernel

end HostExpr
