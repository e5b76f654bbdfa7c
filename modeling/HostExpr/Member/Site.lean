import HostExpr.Member.Access

/-!
# Call sites

Every place of a program that accesses a member is a call site. A site keeps the accessor that it found for the
class it met last: one that looks the member up on every access, or one that is specialized to exactly that
class. Which of the two it builds is its strategy, fixed when the site first needs an accessor.
-/

namespace HostExpr

/-- How a site builds its accessors. -/
inductive Strategy
  /-- Look the member up on every access. -/
  | universal
  /-- Bind to the class at hand, where the member allows it. -/
  | specialized
deriving DecidableEq, Repr, Inhabited

namespace Strategy

/-- The name of a strategy. -/
def name : Strategy → String
  | universal => "universal"
  | specialized => "specialized"

/-- The strategy of a name or its alias; case and blanks around it do not count. -/
def ofName? (name : String) : Option Strategy :=
  let word := String.ofList ((trimmed name.toList).map Char.toLower)
  if word = "universal" || word = "reflective" then some universal
  else if word = "specialized" || word = "asm" then some specialized
  else none

end Strategy

/-- The member that a site accesses. -/
inductive Member
  | property (name : String)
  | method (name : String) (arity : Nat)
  | index
deriving DecidableEq, Repr, Inhabited

/-- The name of a member. -/
def Member.name : Member → String
  | property n | method n _ => n
  | index => "[]"

/-- How a member is reached. -/
inductive Accessor
  | universal
  | slot (index : Nat) (type : Ty)
  | computed (get set : Option Code) (type : Ty)
  | getterMethod (m : Method)
  | method (m : Method) (params : List Ty)
  | mapKey (key : Value)
  | listIndex
  | arrayIndex
  | mapIndex

namespace Accessor

/-- The word for a kind of accessor. -/
def kindName : Accessor → String
  | universal => "Universal"
  | slot .. => "Slot"
  | computed .. => "Computed"
  | getterMethod _ => "GetterMethod"
  | method .. => "Method"
  | mapKey _ => "MapKey"
  | listIndex => "ListIndex"
  | arrayIndex => "ArrayIndex"
  | mapIndex => "MapIndex"

/-- The accessor to a property for receivers of exactly the class of the given one. -/
def specializeProperty? (cs : Classes) (receiver : Value) (name : String) : Option Accessor :=
  if receiver.classRef = .builtin .map then some (mapKey (.str name))
  else
    match cs.property? receiver.classRef name with
    | some property =>
      let type := cs.resolve receiver.runtimeType property.type
      match property.kind with
      | .slot i => some (slot i type)
      | .computed get set => some (computed get set type)
    | none => (cs.getterMethod? receiver.classRef name).map getterMethod

/-- The accessor to a method; one that is overloaded for its number of arguments has none. -/
def specializeMethod? (cs : Classes) (receiver : Value) (name : String) (arity : Nat) : Option Accessor :=
  match (cs.methods receiver.classRef name).filter (·.arity = arity) with
  | [m] => some (method m (cs.paramTypes receiver.runtimeType m))
  | _ => none

/-- The accessor to the items of a receiver. -/
def specializeIndex? : ClassRef → Option Accessor
  | .builtin .list => some listIndex
  | .builtin .array => some arrayIndex
  | .builtin .map => some mapIndex
  | _ => none

/-- The accessor to a member for receivers of exactly the class of the given one, if there can be one. Members
of class values are static and have none. -/
def specialize? (cs : Classes) (receiver : Value) (member : Member) : Option Accessor :=
  match receiver with
  | .cls _ => none
  | _ =>
    match member with
    | .property name => specializeProperty? cs receiver name
    | .method name arity => specializeMethod? cs receiver name arity
    | .index => specializeIndex? receiver.classRef

/-- The accessor that a strategy builds. -/
def build (cs : Classes) (strategy : Strategy) (receiver : Value) (member : Member) : Accessor :=
  match strategy with
  | .universal => universal
  | .specialized => (specialize? cs receiver member).getD universal

/-! ## Access through an accessor

An accessor that does not fit the receiver, or cannot do what is asked, leaves the access to the lookup. -/

/-- Read a property. -/
def get (w : World) (accessor : Accessor) (name : String) (receiver : Value) : Act Value :=
  match accessor, receiver with
  | slot i _, .object h _ => Act.slot h i
  | computed (some get) _ _, _ => w.invoke get receiver []
  | getterMethod m, _ => w.invoke m.code receiver []
  | mapKey key, .map h => do return (← Act.mapGet? h key).getD .null
  | _, _ => w.getProperty receiver name

/-- Write a property. -/
def set (w : World) (accessor : Accessor) (name : String) (receiver value : Value) : Act Unit :=
  match accessor, receiver with
  | slot i type, .object h _ => do Act.setSlot h i (← w.convertTo type value)
  | computed _ (some set) type, _ => do
    let _ ← w.invoke set receiver [← w.convertTo type value]
  | mapKey key, .map h => do
    let _ ← Act.mapPut h key value
  | _, _ => w.setProperty receiver name value

/-- Call a method. Arguments that need conversion leave the call to the lookup. -/
def call (w : World) (accessor : Accessor) (name : String) (receiver : Value) (args : List Value) :
    Act Value :=
  match accessor with
  | method m params =>
    -- the only candidate for this number of arguments takes them as they are
    if (args.zip params).all fun (arg, param) => w.classes.satisfies arg param then
      w.invoke m.code receiver args
    else w.callMethod receiver name args
  | _ => w.callMethod receiver name args

/-- Read what stands at an index. -/
def getIndex (w : World) (accessor : Accessor) (receiver index : Value) : Act Value :=
  match accessor, receiver with
  | listIndex, .list h => w.getItem h index
  | arrayIndex, .array h _ => w.getItem h index
  | mapIndex, .map h => do return (← Act.mapGet? h index).getD .null
  | _, _ => w.getIndex receiver index

/-- Store a value at an index. -/
def setIndex (w : World) (accessor : Accessor) (receiver index value : Value) : Act Unit :=
  match accessor, receiver with
  | listIndex, .list h => w.setItem h index value
  | mapIndex, .map h => do
    let _ ← Act.mapPut h index value
  | _, _ => w.setIndex receiver index value

end Accessor

/-- A call site: its member, the strategy it is told to use if any, the strategy it has settled on, and the
accessor for the class it met last. -/
structure Site where
  member : Member
  preferred : Option Strategy
  settled : Option Strategy
  binding : Option (ClassRef × Accessor)

namespace Site

/-- A site that has met no class yet. -/
def fresh (member : Member) (preferred : Option Strategy) : Site := ⟨member, preferred, none, none⟩

/-- The accessor for a receiver, and the site that keeps it. `default` is the strategy of sites that are told
none. -/
def resolve (cs : Classes) (default : Strategy) (site : Site) (receiver : Value) : Accessor × Site :=
  let miss : Accessor × Site :=
    -- the first miss settles the strategy for good
    let strategy := site.settled.getD (site.preferred.getD default)
    let accessor := Accessor.build cs strategy receiver site.member
    (accessor,
      { site with settled := some strategy, binding := some (receiver.classRef, accessor) })
  match site.binding with
  | some (c, accessor) => if c = receiver.classRef then (accessor, site) else miss
  | none => miss

/-- What a site does with a receiver: nothing but a failure on null; static members are looked up without
the site; all else goes through the accessor. -/
def access {α : Type} (cs : Classes) (default : Strategy) (site : Site) (receiver : Value)
    (static : Act α) (through : Accessor → Act α) : Act α × Site :=
  match receiver with
  | .null => (throw (.nullReceiver site.member.name), site)
  | .cls _ => (static, site)
  | _ =>
    let (accessor, site) := site.resolve cs default receiver
    (through accessor, site)

/-- Read a property through a site. -/
def get (w : World) (default : Strategy) (site : Site) (receiver : Value) : Act Value × Site :=
  site.access w.classes default receiver (w.getProperty receiver site.member.name)
    fun accessor => accessor.get w site.member.name receiver

/-- Write a property through a site. -/
def set (w : World) (default : Strategy) (site : Site) (receiver value : Value) : Act Unit × Site :=
  site.access w.classes default receiver (w.setProperty receiver site.member.name value)
    fun accessor => accessor.set w site.member.name receiver value

/-- Call a method through a site. -/
def call (w : World) (default : Strategy) (site : Site) (receiver : Value) (args : List Value) :
    Act Value × Site :=
  site.access w.classes default receiver (w.callMethod receiver site.member.name args)
    fun accessor => accessor.call w site.member.name receiver args

/-- What a site does with an index; class values go through the accessor like all others. -/
def accessIndex {α : Type} (cs : Classes) (default : Strategy) (site : Site) (receiver : Value)
    (through : Accessor → Act α) : Act α × Site :=
  match receiver with
  | .null => (throw (.nullReceiver site.member.name), site)
  | _ =>
    let (accessor, site) := site.resolve cs default receiver
    (through accessor, site)

/-- Read what stands at an index through a site. -/
def getIndex (w : World) (default : Strategy) (site : Site) (receiver index : Value) : Act Value × Site :=
  site.accessIndex w.classes default receiver fun accessor => accessor.getIndex w receiver index

/-- Store a value at an index through a site. -/
def setIndex (w : World) (default : Strategy) (site : Site) (receiver index value : Value) :
    Act Unit × Site :=
  site.accessIndex w.classes default receiver fun accessor => accessor.setIndex w receiver index value

end Site

end HostExpr
