import HostExpr.Execution.Program
import HostExpr.Proofs.Type.Order
import HostExpr.Proofs.Typing.Scoped

/-!
# What a run reads

Analysis goes by the class that it expects of a receiver, and by type arguments. Neither binds a run: the class at hand
may declare a member otherwise, and nothing enforces type arguments, the types of slots and what class a class value is.
`Setting.readsRow` goes along a run and asks whether all that it reads in this way is what is recorded for it: null, or of
the class of the recorded type or of a narrower number. A member whose type at the class at hand fits is not asked for
its value, and nothing is asked of what a run does not get to.
-/

namespace HostExpr

open Typed

/-- The expression is the name of a class. -/
def Typed.Expr.isClassName : Expr → Bool
  | .classRef .. => true
  | _ => false

/-- A check behind a statement, unless it has returned. -/
def Flow.unlessReturned (check : Running → Bool) : Flow → Running → Bool
  | .normal _ => check
  | .returned _ => fun _ => true

/-! ## What the class at hand declares -/

namespace World

variable (w : World)

/-- The type of a member that is read through code. Nothing is said of slots. -/
def memberType? (receiver : Value) (name : String) : Option Ty :=
  match w.classes.property? receiver.classRef name with
  | some property =>
    match property.kind with
    | .slot _ => none
    | .computed .. => some (w.classes.resolve receiver.runtimeType property.type)
  | none =>
    (w.classes.getterMethod? receiver.classRef name).map fun m => w.classes.resolve receiver.runtimeType m.result

/-- The type of a property. Nothing is said of the entries of maps. -/
def propertyType? (receiver : Value) (name : String) : Option Ty :=
  match receiver with
  | .map _ => none
  | .cls c => ((w.classes.staticField? c name).map StaticField.type).or (w.memberType? receiver name)
  | _ => w.memberType? receiver name

/-- The type of the result of the candidate that fits the arguments. -/
def candidateType? (candidates : List Method) (owner : Ty) (args : List Value) : Option Ty :=
  (w.select? candidates owner args).map fun chosen => w.classes.resolve owner chosen.1.result

/-- The type of the result of a call. Static methods of a class go first. -/
def resultType? (receiver : Value) (name : String) (args : List Value) : Option Ty :=
  let member := w.candidateType? (w.classes.methods receiver.classRef name) receiver.runtimeType args
  match receiver with
  | .cls c =>
    match w.classes.staticMethods c name with
    | [] => member
    | statics => w.candidateType? statics (.raw c) args
  | _ => member

end World

/-! ## Along a run -/

namespace Exec

/-- A check of what a step gives and of the state behind it. Nothing is asked of a step that stops. -/
def after {α : Type} (x : Exec α) (check : α → Running → Bool) (s : Running) : Bool :=
  match x s with
  | (.ok a, s') => check a s'
  | (.error _, _) => true

/-- A check in a block. -/
def within (check : Running → Bool) (s : Running) : Bool := check { s with frames := s.frames.push }

/-- A check along a loop: of each look at the condition and of each run of the body. -/
def alongWhile (cond : Exec Bool) (checkCond : Running → Bool) (body : Exec Flow) (checkBody : Running → Bool) :
    Nat → Running → Bool
  | 0, _ => true
  | turns + 1, s =>
    checkCond s && after cond (fun holds s =>
      !holds || checkBody s && after body (Flow.unlessReturned (alongWhile cond checkCond body checkBody turns)) s) s

/-- A check along a loop over items: of each run of the body. -/
def alongItems (body : Value → Exec Flow) (check : Value → Running → Bool) : List Value → Running → Bool
  | [], _ => true
  | v :: vs, s => check v s && after (body v) (Flow.unlessReturned (alongItems body check vs)) s

end Exec

namespace Setting

variable (σ : Setting)

/-- A step gives what suits a type. -/
def gives (t : Ty) (x : Exec Value) : Running → Bool := Exec.after x fun v _ => σ.world.classes.suits v t

/-- A type is declared that fits where another is recorded. -/
def declares (t : Ty) (declared : Option Ty) : Bool := declared.any fun u => σ.world.classes.widens u.cls t.cls

/-- A property is what is recorded for it: it is declared so, or it is read so. -/
def givesProperty (t : Ty) (v : Value) (name : String) (site : Nat) (s : Running) : Bool :=
  σ.declares t (σ.world.propertyType? v name) || σ.gives t (σ.getProperty v name site) s

/-- The same of the result of a call. -/
def givesResult (t : Ty) (v : Value) (name : String) (args : List Value) (site : Nat) (s : Running) : Bool :=
  σ.declares t (σ.world.resultType? v name args) || σ.gives t (σ.callMethod v name args site) s

/-- A check along an operand, and of what comes behind it. -/
def along {α : Type} (check : Running → Bool) (x : Exec α) (rest : α → Running → Bool) (s : Running) : Bool :=
  check { s with depth := s.depth + 1 } && Exec.after (σ.deeper x) rest s

/-! ## Expressions -/

/-- Nothing is read. -/
def nothing (_ : Running) : Bool := true

/-- The old value of a place is what is recorded for the target. A name is read as an expression. -/
def givesOld (t : Ty) (checkName : Running → Bool) : Place → Running → Bool
  | .name _ => fun s => checkName { s with depth := s.depth + 1 }
  | .property v name site => σ.givesProperty t v name site
  | .index v position site => σ.gives t (σ.getIndex v position site)

mutual

/-- What the evaluation of an expression reads is what is recorded for it. -/
def reads : Expr → Running → Bool
  | .constant .. | .declared .. | .this _ | .classRef .. | .staticField .. => nothing
  -- what is bound is known; without a binding the root is asked
  | .input i name site => fun s => s.bindings.has name || σ.gives i.type (σ.readInput name site) s
  | .property i e name site => σ.along (reads e) (σ.value e) fun v => σ.givesProperty i.type v name site
  | .methodCall i e name args site =>
    σ.along (reads e) (σ.value e) fun v s =>
      readsEach args s && Exec.after (σ.values args) (fun vs => σ.givesResult i.type v name vs site) s
  | .functionCall _ _ args | .construct _ _ args _ | .newArray _ _ args | .inlineList _ args => readsEach args
  | .convert i e target =>
    σ.along (reads e) (σ.value e) fun v =>
      σ.along (reads target) (σ.value target) fun c s =>
        target.isClassName || σ.gives i.type (σ.convertToClass v c) s
  | .index i e position site =>
    σ.along (reads e) (σ.value e) fun v =>
      σ.along (reads position) (σ.value position) fun p => σ.gives i.type (σ.getIndex v p site)
  | .assign _ target .plain e _ => fun s =>
    readsPlace target s && Exec.after (σ.place target) (fun _ => σ.along (reads e) (σ.value e) fun _ => nothing) s
  | .assign _ target (.compound _) e _ => fun s =>
    readsPlace target s && Exec.after (σ.place target) (fun place s =>
      σ.givesOld target.type (reads target) place s && Exec.after (σ.readPlace (σ.deeper (σ.value target)) place)
        (fun _ => σ.along (reads e) (σ.value e) fun _ => nothing) s) s
  | .step _ _ target => fun s => readsPlace target s && Exec.after (σ.place target) (σ.givesOld target.type (reads target)) s
  | .arith _ _ a b | .compare _ _ a b =>
    σ.along (reads a) (σ.value a) fun _ => σ.along (reads b) (σ.value b) fun _ => nothing
  | .logic _ op a b =>
    σ.along (reads a) (σ.value a) fun v => Exec.after (σ.truth v) fun l s =>
      decide (op = .and) != l || σ.along (reads b) (σ.value b) (fun _ => nothing) s
  | .unary _ _ e | .cast _ _ e | .newSized _ _ e => σ.along (reads e) (σ.value e) fun _ => nothing
  | .conditional _ c a b =>
    σ.along (reads c) (σ.value c) fun v => Exec.after (σ.truth v) fun holds =>
      if holds then σ.along (reads a) (σ.value a) fun _ => nothing else σ.along (reads b) (σ.value b) fun _ => nothing
  | .inlineMap _ entries => readsEntries entries

/-- The same of what is evaluated to find the place of a target. -/
def readsPlace : Expr → Running → Bool
  | .property _ e _ _ => σ.along (reads e) (σ.value e) fun _ => nothing
  | .index _ e position _ =>
    σ.along (reads e) (σ.value e) fun _ => σ.along (reads position) (σ.value position) fun _ => nothing
  | _ => nothing

/-- The same of expressions in a row. -/
def readsEach : List Expr → Running → Bool
  | [] => nothing
  | e :: es => σ.along (reads e) (σ.value e) fun _ => readsEach es

/-- The same of the entries of a map. -/
def readsEntries : List (Expr × Expr) → Running → Bool
  | [] => nothing
  | (k, v) :: es =>
    σ.along (reads k) (σ.value k) fun _ => σ.along (reads v) (σ.value v) fun _ => readsEntries es

end

/-! ## Statements -/

/-- What the evaluation of an expression reads that may be missing. -/
def reads? : Option Expr → Running → Bool
  | some e => σ.along (σ.reads e) (σ.value e) fun _ => nothing
  | none => nothing

/-- The same of the updates of a `for` statement, which follow its body. -/
def readsTurn (update : List Expr) (body : Exec Flow) (check : Running → Bool) (s : Running) : Bool :=
  Exec.after (Exec.tick σ.limits) (fun _ => Exec.within check) s &&
    Exec.after (σ.loopBody body) (Flow.unlessReturned (σ.readsEach update)) s

/-- The same of a run of the body of a loop over items. An item that is not converted to a written type has to be what is
recorded for it. -/
def readsItem (name : String) (declared : Option Ty) (item : Ty) (check : Running → Bool) (v : Value) : Running → Bool :=
  Exec.after (Exec.tick σ.limits) fun _ s =>
    (declared.isSome || σ.world.classes.suits v item) &&
      Exec.after (σ.convert? v declared) (fun v => Exec.within (Exec.after (Exec.declare name v) fun _ => check)) s

mutual

/-- What a run of a statement reads is what is recorded for it. -/
def readsRun : Stmt → Running → Bool
  | .expr e => σ.reads e
  | .declare _ _ _ e _ | .returns _ e => σ.reads? e
  | .block _ body => Exec.within (readsRow body)
  | .branch _ cond thenBody elseBody => fun s =>
    σ.reads? (some cond) s && Exec.after (σ.condition cond) (fun holds =>
      if holds then Exec.within (readsRow thenBody)
      else
        match elseBody with
        | some body => Exec.within (readsRow body)
        | none => nothing) s
  | .whileLoop _ cond body =>
    Exec.alongWhile (σ.condition cond) (σ.reads? (some cond)) (σ.loopBody (σ.runAll body .null))
      (σ.readsTurn [] (σ.runAll body .null) (readsRow body)) σ.turns
  | .forLoop _ init cond update body =>
    let turns := Exec.alongWhile (σ.condition? cond) (σ.reads? cond) (σ.forBody update (σ.runAll body .null))
      (σ.readsTurn update (σ.runAll body .null) (readsRow body)) σ.turns
    Exec.within fun s =>
      match init with
      | some first => σ.along (readsRun first) (σ.run first) (fun _ => turns) s
      | none => turns s
  | .forEach _ name declared items body =>
    σ.along (σ.reads items) (σ.value items) fun v => Exec.after (σ.itemsOf v)
      (Exec.alongItems (σ.itemBody name declared (σ.runAll body .null))
        (σ.readsItem name declared items.type.iterated (readsRow body)))
  | .nop _ => nothing

/-- The same of statements in a row. -/
def readsRow : List Stmt → Running → Bool
  | [] => nothing
  | s :: ss => σ.along (readsRun s) (σ.run s) (Flow.unlessReturned (readsRow ss))

end

end Setting

end HostExpr
