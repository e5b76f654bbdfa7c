import HostExpr.Proofs.Call.Exec

/-!
# Evaluation calls bodies well

Evaluating a part of a well-made program calls bodies well. The induction is on the expression. What it needs of a part
is in the program: the member of its call site, and how many arguments a function or a chosen constructor takes.
-/

namespace HostExpr

open Typed

/-- The place accesses what its call site is for, and a name is a part of the program. -/
def Place.Of (p : Program) : Place → Prop
  | .name target => target ∈ Stmt.partsAll p.body
  | .property _ member site => p.memberAt site = .property member
  | .index _ _ site => p.memberAt site = .index

namespace Setting

open Exec

variable {σ : Setting} {p : Program}

/-! ## Access through call sites -/

theorem proper_getProperty {name : String} {site : Nat} (hm : p.memberAt site = .property name) (receiver : Value) :
    Proper σ.world p (σ.getProperty receiver name site) fun _ => True := by
  refine .atSite hm (fun given bound => ?_) (fun given bound => ?_) (σ.world.proper_getProperty receiver name)
  · exact bound.through σ.strategy (.get receiver)
  · exact bound.proper_access σ.strategy (.get receiver)

theorem proper_setProperty {name : String} {site : Nat} (hm : p.memberAt site = .property name) (receiver v : Value) :
    Proper σ.world p (σ.setProperty receiver name site v) fun _ => True := by
  refine .atSite hm (fun given bound => ?_) (fun given bound => ?_) (σ.world.proper_setProperty receiver name v)
  · exact bound.through σ.strategy (.set receiver v)
  · rw [bound.set_eq]
    exact σ.world.proper_setProperty receiver name v

theorem proper_callMethod {name : String} {site : Nat} {args : List Value}
    (hm : p.memberAt site = .method name args.length) (receiver : Value) :
    Proper σ.world p (σ.callMethod receiver name args site) fun _ => True := by
  refine .atSite hm (fun given bound => ?_) (fun given bound => ?_) (σ.world.proper_callMethod receiver name args)
  · exact bound.call σ.strategy ⟨receiver, args, rfl⟩
  · exact bound.proper_call σ.strategy ⟨receiver, args, rfl⟩

theorem proper_getIndex {site : Nat} (hm : p.memberAt site = .index) (receiver position : Value) :
    Proper σ.world p (σ.getIndex receiver position site) fun _ => True := by
  refine .atSite hm (fun given bound => ?_) (fun given bound => ?_) (σ.world.proper_getIndex receiver position)
  · exact bound.through σ.strategy (.getIndex receiver position)
  · exact bound.proper_access σ.strategy (.getIndex receiver position)

theorem proper_setIndex {site : Nat} (hm : p.memberAt site = .index) (receiver position v : Value) :
    Proper σ.world p (σ.setIndex receiver position site v) fun _ => True := by
  refine .atSite hm (fun given bound => ?_) (fun given bound => ?_) (σ.world.proper_setIndex receiver position v)
  · exact bound.through σ.strategy (.setIndex receiver position v)
  · rw [bound.setIndex_eq]
    exact σ.world.proper_setIndex receiver position v

/-! ## Inputs -/

/-- A name that is read as an input lacks a value only where it is not bound. -/
theorem proper_readInput {name : String} {site : Nat} (hm : p.memberAt site = .property name) (read : p.Reads name) :
    Proper σ.world p (σ.readInput name site) fun _ => True := by
  intro s hs
  unfold readInput
  split
  · exact ⟨[], .still hs (fun _ hn => hn) rfl, nofun, fun _ _ => trivial⟩
  · rename_i unbound
    have lacking : ¬ s.bindings.has name := by simp [Table.has, unbound]
    split
    · -- without a root the input is missing; with one, it is a member of the root
      refine ⟨[], .still hs (fun _ hn => hn) rfl, fun n he => .inr ?_, fun _ _ => trivial⟩
      cases he
      exact ⟨read, lacking⟩
    · obtain ⟨new, advances, lacks, -⟩ := proper_getProperty hm σ.root s hs
      have kept := bindings_atSite site (fun given => given.get σ.world σ.strategy σ.root)
        (σ.world.getProperty σ.root name) s
      split
      · rename_i e s' he
        have kept : s'.bindings = s.bindings := by
          rw [← kept]
          exact congrArg (fun r => r.2.bindings) he.symm
        rw [he] at advances lacks
        refine ⟨new, advances, fun n hn => ?_, fun _ _ => trivial⟩
        -- a member that the root lacks is reported as an input that is not bound
        by_cases hl : lacksMember e
        · simp only [hl, if_true] at hn
          cases hn
          exact .inr ⟨read, by rw [kept]; exact lacking⟩
        · simp only [hl] at hn
          exact lacks n hn
      · exact ⟨new, advances, lacks, fun _ _ => trivial⟩

theorem proper_writeInput {name : String} {site : Nat} (hm : p.memberAt site = .property name) (v : Value) :
    Proper σ.world p (σ.writeInput name site v) fun _ => True := by
  intro s hs
  unfold writeInput
  split
  · exact Proper.bindName name v s hs
  · obtain ⟨new, advances, lacks, -⟩ := proper_setProperty hm σ.root v s hs
    split
    · rename_i e s' he
      rw [he] at advances lacks
      split
      · obtain ⟨more, advances', -, -⟩ := Proper.bindName (w := σ.world) (p := p) name v s' advances.sites
        exact ⟨more ++ new, advances.trans advances', nofun, fun _ _ => trivial⟩
      · exact ⟨new, advances, lacks, fun _ _ => trivial⟩
    · exact ⟨new, advances, lacks, fun _ _ => trivial⟩

/-! ## Places -/

theorem proper_readPlace {readName : Exec Value} (h : Proper σ.world p readName fun _ => True) {place : Place}
    (hp : place.Of p) : Proper σ.world p (σ.readPlace readName place) fun _ => True := by
  cases place with
  | name target => exact h
  | property receiver name site => exact proper_getProperty hp receiver
  | index receiver position site => exact proper_getIndex hp receiver position

variable {env : Environment}

theorem proper_writePlace (wm : p.WellMade σ.world env) (v : Value) {place : Place} (hp : place.Of p) :
    Proper σ.world p (σ.writePlace v place) fun _ => True := by
  cases place with
  | name target =>
    cases target with
    | declared info name => exact .writeName name v
    | input info name site => exact proper_writeInput (wm.memberAt_eq hp rfl) v
    | _ => exact .fail nofun
  | property receiver name site => exact proper_setProperty hp receiver v
  | index receiver position site => exact proper_setIndex hp receiver position v

/-! ## Steps of an evaluation -/

theorem proper_deeper {α : Type} {x : Exec α} {Q : α → Prop} (h : Proper σ.world p x Q) :
    Proper σ.world p (σ.deeper x) Q := .nested σ.limits h

theorem proper_staticField (σ : Setting) (p : Program) (c : ClassRef) (field : String) :
    Proper σ.world p (σ.staticField c field) fun _ => True := by
  unfold staticField
  split
  · exact .pure trivial
  · exact .fail nofun

/-- A call of a function that takes as many arguments as there are. -/
theorem proper_callFunction {function : Nat} {args : List Value}
    (fits : ∀ f, σ.world.functions[function]? = some f → f.params.length = args.length) :
    Proper σ.world p (σ.callFunction function args) fun _ => True := by
  unfold callFunction
  split
  · rename_i f found
    exact .act (World.proper_boundCall (.function (List.mem_of_getElem? found)) (fits f found).symm)
  · exact .pure trivial

theorem proper_convertToClass (σ : Setting) (p : Program) (v target : Value) :
    Proper σ.world p (σ.convertToClass v target) fun _ => True := by
  unfold convertToClass
  split
  · exact .act ((σ.world.proper_convert v _).weaken fun _ _ => trivial)
  · exact .fail nofun

theorem proper_convert (σ : Setting) (p : Program) (v : Value) (t : Ty) :
    Proper σ.world p (σ.convert v t) fun _ => True :=
  .act ((σ.world.proper_convertTo t v).weaken fun _ _ => trivial)

theorem proper_convert? (σ : Setting) (p : Program) (v : Value) (t : Option Ty) :
    Proper σ.world p (σ.convert? v t) fun _ => True := by
  cases t with
  | none => exact .pure trivial
  | some t => exact σ.proper_convert p v t

theorem proper_newArray (σ : Setting) (p : Program) (item : Ty) (items : List Value) :
    Proper σ.world p (σ.newArray item items) fun _ => True := by
  have each (v : Value) : Act.Proper σ.world (σ.world.convertTo item v) fun _ => True :=
    (σ.world.proper_convertTo item v).weaken fun _ _ => trivial
  exact .act ((Act.Proper.mapM each items).bind fun items _ => .quiet (Act.quiet_newArray item items))

theorem proper_newSized (σ : Setting) (p : Program) (item : Ty) (length : Value) :
    Proper σ.world p (σ.newSized item length) fun _ => True := by
  unfold newSized
  refine (σ.proper_convert p length .integer).bind fun n _ => ?_
  split
  · split
    · exact .act (.quiet (Act.quiet_newArray item _))
    · exact .fail nofun
  · exact .fail nofun

theorem proper_truth (σ : Setting) (p : Program) (v : Value) : Proper σ.world p (σ.truth v) fun _ => True :=
  .act (σ.world.proper_truth v)

theorem proper_arith (σ : Setting) (p : Program) (op : ArithOp) (left right : Value) :
    Proper σ.world p (σ.arith op left right) fun _ => True := .act (op.proper_apply left right)

theorem proper_combine {x y : Exec Value} (op : AssignOp) (hx : Proper σ.world p x fun _ => True)
    (hy : Proper σ.world p y fun _ => True) : Proper σ.world p (σ.combine op x y) fun _ => True := by
  cases op with
  | plain => exact hy
  | compound op => exact hx.bind fun old _ => hy.bind fun operand _ => σ.proper_arith p op old operand

theorem proper_counted (σ : Setting) (p : Program) (op : StepOp) (type : Ty) (old : Value) :
    Proper σ.world p (σ.counted op type old) fun _ => True :=
  (σ.proper_arith p op.arith old (.int 1)).bind fun new _ => σ.proper_convert? p new _

theorem proper_logic {w : World} {x y : Exec Bool} (op : LogicOp) (hx : Proper w p x fun _ => True)
    (hy : Proper w p y fun _ => True) : Proper w p (logic op x y) fun _ => True := by
  refine hx.bind fun l _ => ?_
  cases op <;> cases l
  · exact .pure trivial
  · exact hy.map fun _ _ => trivial
  · exact hy.map fun _ _ => trivial
  · exact .pure trivial

theorem proper_unary (σ : Setting) (p : Program) (op : UnaryOp) (operand : Value) :
    Proper σ.world p (σ.unary op operand) fun _ => True := by
  cases op with
  | neg =>
    refine .ofExcept fun e failed name => ?_
    unfold negate at failed
    split at failed
    · cases failed
    · cases failed
    · cases failed
    · cases failed
      exact nofun
  | not => exact (σ.proper_truth p operand).bind fun _ _ => .pure trivial

/-! ## Expressions -/

mutual

/-- The value of a part of the program. -/
theorem proper_value (wm : p.WellMade σ.world env) (e : Expr) (he : e.parts ⊆ Stmt.partsAll p.body) :
    Proper σ.world p (σ.value e) fun _ => True := by
  have operand (e' : Expr) (h : sizeOf e' < sizeOf e) (he' : e'.parts ⊆ Stmt.partsAll p.body) :
      Proper σ.world p (σ.deeper (σ.value e')) fun _ => True := proper_deeper (proper_value wm e' he')
  have self : e ∈ Stmt.partsAll p.body := he e.self_mem_parts
  have inner : e.inner ⊆ Stmt.partsAll p.body := List.Subset.trans (List.subset_cons_self _ _) he
  -- by recursion on the expression: each node meets the member that it was numbered for at its own site
  cases e with
  | constant info v =>
    unfold value
    exact .pure trivial
  | declared info name =>
    unfold value
    exact .readName name
  | input info name site =>
    unfold value
    exact proper_readInput (wm.memberAt_eq self rfl) ⟨info, site, self⟩
  | this info =>
    unfold value
    exact .pure trivial
  | classRef info c =>
    unfold value
    exact .pure trivial
  | staticField info c field =>
    unfold value
    exact σ.proper_staticField p c field
  | property info receiver name site =>
    unfold value
    have hm := wm.memberAt_eq self rfl
    exact (operand receiver (by simp +arith) inner).bind fun r _ => proper_getProperty hm r
  | methodCall info receiver name args site =>
    unfold value
    obtain ⟨first, rest⟩ := List.append_subset.1 inner
    have hm : p.memberAt site = .method name args.length := wm.memberAt_eq self rfl
    refine (operand receiver (by simp +arith) first).bind fun r _ => ?_
    refine (proper_values wm args rest).bind fun vs hl => proper_callMethod ?_ r
    rw [hl]
    exact hm
  | functionCall info function args =>
    unfold value
    have fits : σ.world.Fits env (.functionCall info function args) := wm.fits _ self
    refine (proper_values wm args inner).bind fun vs hl => proper_callFunction fun f found => ?_
    rw [hl]
    exact fits f found
  | convert info v target =>
    unfold value
    obtain ⟨left, right⟩ := List.append_subset.1 inner
    refine (operand v (by simp +arith) left).bind fun v _ => ?_
    exact (operand target (by simp +arith) right).bind fun target _ => σ.proper_convertToClass p v target
  | index info receiver position site =>
    unfold value
    obtain ⟨left, right⟩ := List.append_subset.1 inner
    have hm := wm.memberAt_eq self rfl
    refine (operand receiver (by simp +arith) left).bind fun r _ => ?_
    exact (operand position (by simp +arith) right).bind fun i _ => proper_getIndex hm r i
  | assign info target op v stored =>
    unfold value
    obtain ⟨left, right⟩ := List.append_subset.1 inner
    refine (proper_place wm target left).bind fun place hp => ?_
    have old := proper_readPlace (operand target (by simp +arith) left) hp
    refine (σ.proper_combine op old (operand v (by simp +arith) right)).bind fun new _ => ?_
    refine (σ.proper_convert? p new stored).bind fun new _ => ?_
    exact (proper_writePlace wm new hp).bind fun _ _ => .pure trivial
  | arith info op left right =>
    unfold value
    obtain ⟨hl, hr⟩ := List.append_subset.1 inner
    refine (operand left (by simp +arith) hl).bind fun left _ => ?_
    exact (operand right (by simp +arith) hr).bind fun right _ => σ.proper_arith p op left right
  | logic info op left right =>
    unfold value
    obtain ⟨hl, hr⟩ := List.append_subset.1 inner
    have left := (operand left (by simp +arith) hl).bind fun v _ => σ.proper_truth p v
    have right := (operand right (by simp +arith) hr).bind fun v _ => σ.proper_truth p v
    exact proper_logic op left right
  | compare info op left right =>
    unfold value
    obtain ⟨hl, hr⟩ := List.append_subset.1 inner
    refine (operand left (by simp +arith) hl).bind fun left _ => ?_
    refine (operand right (by simp +arith) hr).bind fun right _ => ?_
    exact (Proper.act (σ.world.proper_compare op left right)).map fun _ _ => trivial
  | unary info op e =>
    unfold value
    exact (operand e (by simp +arith) inner).bind fun v _ => σ.proper_unary p op v
  | step info op target =>
    unfold value
    refine (proper_place wm target inner).bind fun place hp => ?_
    refine (proper_readPlace (operand target (by simp +arith) inner) hp).bind fun old _ => ?_
    refine (σ.proper_counted p op target.type old).bind fun new _ => ?_
    exact (proper_writePlace wm new hp).bind fun _ _ => .pure trivial
  | cast info type e =>
    unfold value
    exact (operand e (by simp +arith) inner).bind fun v _ => σ.proper_convert p v type
  | conditional info cond thenBranch elseBranch =>
    unfold value
    obtain ⟨head, last⟩ := List.append_subset.1 inner
    obtain ⟨first, second⟩ := List.append_subset.1 head
    refine (operand cond (by simp +arith) first).bind fun cond _ => ?_
    refine (σ.proper_truth p cond).bind fun holds _ => ?_
    cases holds with
    | true => exact operand thenBranch (by simp +arith) second
    | false => exact operand elseBranch (by simp +arith) last
  | construct info c args chosen =>
    unfold value
    have fits : σ.world.Fits env (.construct info c args chosen) := wm.fits _ self
    refine (proper_values wm args inner).bind fun vs hl => .act (World.proper_construct fun i hi => ?_)
    rw [hl]
    exact fits i hi
  | newArray info item items =>
    unfold value
    exact (proper_values wm items inner).bind fun items _ => σ.proper_newArray p item items
  | newSized info item length =>
    unfold value
    exact (operand length (by simp +arith) inner).bind fun length _ => σ.proper_newSized p item length
  | inlineList info items =>
    unfold value
    exact (proper_values wm items inner).bind fun items _ => .act (.quiet (Act.quiet_newList items))
  | inlineMap info entries =>
    unfold value
    exact (proper_entryValues wm entries inner).bind fun entries _ => .act (.quiet (Act.quiet_newMap entries))
termination_by sizeOf e

/-- The place that a part of the program names. -/
theorem proper_place (wm : p.WellMade σ.world env) (e : Expr) (he : e.parts ⊆ Stmt.partsAll p.body) :
    Proper σ.world p (σ.place e) (Place.Of p) := by
  have operand (e' : Expr) (h : sizeOf e' < sizeOf e) (he' : e'.parts ⊆ Stmt.partsAll p.body) :
      Proper σ.world p (σ.deeper (σ.value e')) fun _ => True := proper_deeper (proper_value wm e' he')
  have self : e ∈ Stmt.partsAll p.body := he e.self_mem_parts
  have inner : e.inner ⊆ Stmt.partsAll p.body := List.Subset.trans (List.subset_cons_self _ _) he
  cases e with
  | property info receiver name site =>
    unfold place
    exact (operand receiver (by simp +arith) inner).bind fun r _ => .pure (wm.memberAt_eq self rfl)
  | index info receiver position site =>
    unfold place
    obtain ⟨left, right⟩ := List.append_subset.1 inner
    refine (operand receiver (by simp +arith) left).bind fun r _ => ?_
    exact (operand position (by simp +arith) right).bind fun i _ => .pure (wm.memberAt_eq self rfl)
  | _ =>
    unfold place
    exact .pure self
termination_by sizeOf e

/-- The values of a row of parts, as many as there are. -/
theorem proper_values (wm : p.WellMade σ.world env) (es : List Expr)
    (he : Expr.partsAll es ⊆ Stmt.partsAll p.body) :
    Proper σ.world p (σ.values es) fun vs => vs.length = es.length := by
  cases es with
  | nil =>
    unfold values
    exact .pure rfl
  | cons e es =>
    unfold values
    rw [Expr.partsAll_cons] at he
    obtain ⟨first, rest⟩ := List.append_subset.1 he
    refine (proper_deeper (proper_value wm e first)).bind fun v _ => ?_
    exact (proper_values wm es rest).bind fun vs hl => .pure (congrArg (· + 1) hl)
termination_by sizeOf es

/-- The keys and values of the entries of a map. -/
theorem proper_entryValues (wm : p.WellMade σ.world env) (entries : List (Expr × Expr))
    (he : Expr.partsEntries entries ⊆ Stmt.partsAll p.body) :
    Proper σ.world p (σ.entryValues entries) fun _ => True := by
  match entries with
  | [] =>
    unfold entryValues
    exact .pure trivial
  | (k, v) :: rest =>
    unfold entryValues
    rw [Expr.partsEntries_cons] at he
    obtain ⟨entry, others⟩ := List.append_subset.1 he
    obtain ⟨key, value⟩ := List.append_subset.1 entry
    refine (proper_deeper (proper_value wm k key)).bind fun k _ => ?_
    refine (proper_deeper (proper_value wm v value)).bind fun v _ => ?_
    exact (proper_entryValues wm rest others).bind fun es _ => .pure trivial
termination_by sizeOf entries

end

end Setting

end HostExpr
