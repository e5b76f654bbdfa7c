import HostExpr.Engine.Image
import HostExpr.Proofs.Engine.Compile
import HostExpr.Proofs.Image.Mentions

/-!
# Images of compiled expressions

An expression that is written and read again by the engine that compiled it comes back as it was compiled, if the
engine has each class and each function that the expression mentions under the name that is written for it.
-/

namespace HostExpr

/-- The classes and functions that an expression mentions. -/
def Expression.mentions (x : Expression) : List Import := x.program.mentions ++ x.env.mentions

/-- The name that is written for a class or function. -/
def World.writtenName (w : World) : Import → String
  | .cls c => w.classes.qualifiedName c
  | .function f => ((w.functions[f]?).map Function.name).getD ""

/-- What is written of an expression behind the header. -/
def Expression.document (w : World) (x : Expression) : Document where
  program := x.program
  env := x.env
  isSetter := x.isSetter
  names := { cls := fun c => w.writtenName (.cls c), function := fun f => w.writtenName (.function f) }

namespace Engine

/-! ## Reading what was written -/

/-- The engine has a class or function under the name that is written for it. -/
def Recalls (e : Engine) : Import → Prop
  | .cls c => e.directory.get? (e.world.writtenName (.cls c)) = some c
  | .function f => e.functions.get? (e.world.writtenName (.function f)) = some f

variable (e : Engine) (x : Expression)

theorem imported_linker_iff (m : Import) :
    (e.linker (x.document e.world)).imported m = some m ↔ e.Recalls m := by
  cases m with
  | cls c => exact Linker.imported_cls _ c
  | function f => exact Linker.imported_function _ f

/-- The header of a written expression is in order and nothing behind it is missing, so that only linking can fail. -/
theorem load_toImage_eq :
    e.load (x.toImage e.world) = match e.link (x.document e.world) with
      | some y => .ok y
      | none => .error (.image .unlinked) := by
  have header : (x.toImage e.world).checkHeader = .ok () := by
    simp [Expression.toImage, Image.checkHeader, Image.magic, Image.version]
  unfold load
  rw [header]
  rfl

/-- Linking gives the expression with fresh call sites exactly if the engine has all that it mentions. -/
theorem link_document_iff :
    e.link (x.document e.world) = some (.fresh x.program x.env x.isSetter e.limits)
      ↔ ∀ m ∈ x.mentions, e.Recalls m := by
  have keeps : (∀ m ∈ x.mentions, e.Recalls m) ↔ (e.linker (x.document e.world)).Keeps x.mentions := by
    simp only [Linker.Keeps, imported_linker_iff]
  rw [keeps, Expression.mentions, Linker.keeps_append, ← Linker.program_eq_self_iff, ← Linker.environment_eq_self_iff]
  simp only [link, Option.bind_eq_bind, Option.bind_eq_some_iff]
  constructor
  · rintro ⟨program, hp, env, he, same⟩
    simp only [Option.pure_def, Option.some.injEq, Expression.fresh, Expression.mk.injEq] at same
    obtain ⟨rfl, rfl, -⟩ := same
    exact ⟨hp, he⟩
  · rintro ⟨hp, he⟩
    exact ⟨_, hp, _, he, rfl⟩

/-- A written expression is read as it was compiled, with fresh call sites, exactly if the engine has all that it
mentions. -/
theorem load_toImage_iff :
    e.load (x.toImage e.world) = .ok (.fresh x.program x.env x.isSetter e.limits)
      ↔ ∀ m ∈ x.mentions, e.Recalls m := by
  rw [load_toImage_eq, ← link_document_iff]
  cases e.link (x.document e.world) with
  | none => simp
  | some y => simp

end Engine

/-! ## Names of registered classes and functions

An engine has under a name what was registered last under it. A class is registered under two names, so that a class
can be replaced under its qualified name by a class of another package. -/

/-- What is found after steps that each may replace it was put there by the last step that does. -/
theorem find_foldl {σ α : Type} (find : σ → Option α) (step : σ → α → σ) (replaces : α → Bool)
    (h : ∀ s a, find (step s a) = if replaces a then some a else find s) (s : σ) (as : List α) :
    find (as.foldl step s) = (as.findRev? replaces).or (find s) := by
  induction as generalizing s with
  | nil => rfl
  | cons a as ih =>
    rw [List.foldl_cons, ih, h, List.findRev?]
    cases as.findRev? replaces with
    | some b => rfl
    | none => cases replaces a <;> rfl

/-- Whether a class is one of the built-in ones. -/
def ClassRef.isBuiltin : ClassRef → Bool
  | builtin _ => true
  | host _ => false

namespace Directory

variable (cs : Classes)

/-- Whether a class is registered under a name. -/
def isNamed (name : String) (c : ClassRef) : Bool := name = cs.name c || name = cs.qualifiedName c

/-- What a name stands for once a class is registered. -/
theorem get?_register (d : Directory) (c : ClassRef) (name : String) :
    (d.register cs c).get? name = if isNamed cs name c then some c else d.get? name := by
  show Table.get? ((d.byName.put (cs.name c) c).put (cs.qualifiedName c) c) name = _
  rw [Table.get?_put, Table.get?_put]
  by_cases hq : name = cs.qualifiedName c
  · simp [isNamed, hq]
  · by_cases hs : name = cs.name c
    · simp [isNamed, hs]
    · simp [isNamed, hq, hs, get?]

/-- Of several classes under one name, the one counts that was registered last. -/
theorem get?_foldl_register (d : Directory) (registered : List ClassRef) (name : String) :
    (registered.foldl (register cs) d).get? name = (registered.findRev? (isNamed cs name)).or (d.get? name) :=
  find_foldl (get? · name) (register cs) (isNamed cs name) (fun d c => get?_register cs d c name) d registered

/-- The built-in classes have their qualified names. -/
theorem get?_builtin_qualifiedName (b : Builtin) : builtin.get? (cs.qualifiedName (.builtin b)) = some (.builtin b) := by
  show builtin.get? b.toDef.qualifiedName = some (.builtin b)
  cases b <;> decide +kernel

/-- Names stand for built-in classes as long as nothing is registered. -/
theorem isBuiltin_of_get?_builtin {name : String} {c : ClassRef} (h : builtin.get? name = some c) : c.isBuiltin := by
  have all : ∀ entry ∈ builtin.byName, entry.2.isBuiltin := by decide +kernel
  exact all _ (Table.mem_of_get? h)

end Directory

/-! ## What an engine recalls -/

/-- Register a function under its name. -/
def World.registerFunction (w : World) (t : Table Nat) (f : Nat) : Table Nat := t.put (w.writtenName (.function f)) f

/-- Of several functions of one name, the one counts that was registered last. -/
theorem World.get?_foldl_registerFunction (w : World) (registered : List Nat) (name : String) :
    Table.get? (registered.foldl w.registerFunction []) name
      = registered.findRev? fun f => name = w.writtenName (.function f) := by
  rw [find_foldl (Table.get? · name) w.registerFunction (fun f => name = w.writtenName (.function f))]
  · exact Option.or_none
  · intro t f
    simp [registerFunction]

/-- A class is the last that was registered under its qualified name, or a built-in class with a name under which
nothing was registered. A function is the last that was registered under its name. -/
def World.isLatest (w : World) (classes : List ClassRef) (functions : List Nat) : Import → Bool
  | .cls c =>
    match classes.findRev? (Directory.isNamed w.classes (w.writtenName (.cls c))) with
    | some d => d = c
    | none => c.isBuiltin
  | .function f =>
    functions.findRev? (fun g => w.writtenName (.function f) = w.writtenName (.function g)) = some f

namespace Engine

/-- An engine at which classes and functions have been registered in the given order. -/
def registering (w : World) (classes : List ClassRef) (functions : List Nat) (limits : Limits) : Engine where
  world := w
  directory := classes.foldl (Directory.register w.classes) .builtin
  functions := functions.foldl w.registerFunction []
  limits := limits

variable {w : World} {classes : List ClassRef} {functions : List Nat} {limits : Limits}

/-- An engine has under its written name just what was registered last under it. -/
theorem recalls_registering_iff (m : Import) :
    (registering w classes functions limits).Recalls m ↔ w.isLatest classes functions m := by
  cases m with
  | cls c =>
    simp only [Recalls, registering, World.isLatest, Directory.get?_foldl_register]
    cases classes.findRev? (Directory.isNamed w.classes (w.writtenName (.cls c))) with
    | some d => simp
    | none =>
      rw [Option.none_or]
      constructor
      · exact Directory.isBuiltin_of_get?_builtin
      · intro h
        cases c with
        | builtin b => exact Directory.get?_builtin_qualifiedName w.classes b
        | host n => cases h
  | function f =>
    simp only [Recalls, registering, World.isLatest, World.get?_foldl_registerFunction, decide_eq_true_eq]

/-! ## The round trip -/

/-- **Written expressions.** Whatever a compiled expression has found at its call sites meanwhile: when it is written
and read by the engine that compiled it, it comes back as it was compiled, with the same program, environment and
limits and with the same call sites, all of which have met nothing yet. The exact condition is that each class and
each function that it mentions is the last that was registered under the name written for it. -/
theorem load_toImage_registering {source : String} {isSetter : Bool} {config : Config} {x : Expression}
    (h : (registering w classes functions limits).compile source isSetter config = .ok x) (sites : Array Site) :
    ((registering w classes functions limits).load ({ x with sites := sites }.toImage w) = .ok x
      ↔ ∀ m ∈ x.mentions, w.isLatest classes functions m)
    ∧ ∀ site ∈ x.sites, site.settled = none ∧ site.binding = none := by
  obtain ⟨body, program, env, -, -, rfl⟩ := compile_ok h
  constructor
  · have read := (registering w classes functions limits).load_toImage_iff
      { Expression.fresh program env isSetter limits with sites := sites }
    simp only [recalls_registering_iff] at read
    exact read
  · intro site hs
    simp only [Expression.fresh, Typed.Program.sites, List.mem_toArray, List.mem_map] at hs
    obtain ⟨i, -, rfl⟩ := hs
    exact ⟨rfl, rfl⟩

/-! ## Registered classes that come back, and one that takes a name away -/

/-- A host with a class in a package and a function. -/
def dairy : World where
  classes := ⟨[.bare "Cheese" (some "org.dairy") (some (.builtin .object))]⟩
  functions := [⟨"price", [.object], .integer, .host 0⟩]
  native _ _ _ := return .int 3
  handlers := []

/-- A program that mentions the class and the function. -/
def cheesePrice : String := "Cheese c = null; int p = price(c); c"

/-- The class and the function are mentioned, and the expression comes back. -/
theorem load_toImage_registering_dairy :
    ∃ x, (registering dairy [.host 0] [0] .default).compile cheesePrice false .default = .ok x
      ∧ .cls (.host 0) ∈ x.mentions ∧ .function 0 ∈ x.mentions
      ∧ (registering dairy [.host 0] [0] .default).load (x.toImage dairy) = .ok x := by
  have read : ((registering dairy [.host 0] [0] .default).compile cheesePrice false .default).toOption.any fun x =>
      decide (.cls (.host 0) ∈ x.mentions) && decide (.function 0 ∈ x.mentions)
        && x.mentions.all (dairy.isLatest [.host 0] [0]) := by
    decide +kernel
  obtain ⟨x, hx, checked⟩ := exists_ok_of_any read
  simp only [Bool.and_eq_true, decide_eq_true_eq, List.all_eq_true] at checked
  obtain ⟨⟨cheese, price⟩, latest⟩ := checked
  exact ⟨x, hx, cheese, price, (load_toImage_registering hx x.sites).1.2 latest⟩

/-- A host with a class in a package whose simple name is the qualified name of a built-in class. -/
def namesake : World where
  classes := ⟨[.bare "Array" (some "p") (some (.builtin .object))]⟩
  functions := []
  native _ _ _ := return .null
  handlers := []

/-- A program that mentions only the built-in class of that name. -/
def firstItem : String := "{ Integer[] a = new Integer[]{1}; return a[0]; }"

/-- Whether a class is built in or has been registered, or a function has been registered. -/
def isKnown (classes : List ClassRef) (functions : List Nat) : Import → Bool
  | .cls c => c.isBuiltin || c ∈ classes
  | .function f => f ∈ functions

/-- All classes of the program are known to the engine, and what is read mentions others. -/
theorem load_toImage_namesake :
    ∃ x y, (registering namesake [.host 0] [] .default).compile firstItem false .default = .ok x
      ∧ (∀ m ∈ x.mentions, isKnown [.host 0] [] m)
      ∧ (registering namesake [.host 0] [] .default).load (x.toImage namesake) = .ok y
      ∧ y.mentions ≠ x.mentions := by
  have read : ((registering namesake [.host 0] [] .default).compile firstItem false .default).toOption.any fun x =>
      x.mentions.all (isKnown [.host 0] [])
        && ((registering namesake [.host 0] [] .default).load (x.toImage namesake)).toOption.any
          fun y => decide (y.mentions ≠ x.mentions) := by
    decide +kernel
  obtain ⟨x, hx, checked⟩ := exists_ok_of_any read
  simp only [Bool.and_eq_true, List.all_eq_true] at checked
  obtain ⟨known, loaded⟩ := checked
  obtain ⟨y, hy, others⟩ := exists_ok_of_any loaded
  exact ⟨x, y, hx, known, hy, of_decide_eq_true others⟩

end Engine

end HostExpr
