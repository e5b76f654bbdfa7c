import HostExpr.World.Conversion

/-!
# Member access

How members of values are read, written and called: every access looks the member up in the class of the value
at hand. Maps have their entries as properties, class values the static members of the class they stand for,
and a method `getX`, `isX` or `setX` stands for a property `x` that the class lacks.
-/

namespace HostExpr

namespace World

/-- The failure of an access to a member that is not there. -/
def noSuchMember (w : World) (receiver : Value) (member : String) : RuntimeError :=
  .noSuchMember (receiver.typeName w.classes) member

/-- The parameter types of a method on a receiver. -/
def paramTypesOn (w : World) (receiver : Value) (m : Method) : List Ty :=
  w.classes.paramTypes receiver.runtimeType m

/-! ## Properties -/

/-- Read a property that the class of the receiver determines. -/
def getMember (w : World) (receiver : Value) (name : String) : Act Value :=
  match w.classes.property? receiver.classRef name with
  | some property =>
    match property.kind, receiver with
    -- a slot of a value that is no instance is not there
    | .slot i, .object h _ => Act.slot h i
    | .computed (some get) _, _ => w.invoke get receiver []
    | _, _ => throw (w.noSuchMember receiver name)
  | none =>
    match w.classes.getterMethod? receiver.classRef name with
    | some getter => w.invoke getter.code receiver []
    | none => throw (w.noSuchMember receiver name)

/-- Read a property. -/
def getProperty (w : World) (receiver : Value) (name : String) : Act Value :=
  match receiver with
  | .null => throw (.nullReceiver name)
  | .cls c =>
    match w.classes.staticField? c name with
    | some field => return field.value
    | none => w.getMember receiver name
  | .map h => do return (← Act.mapGet? h (.str name)).getD .null
  | _ => w.getMember receiver name

/-- Write a property that the class of the receiver determines. -/
def setMember (w : World) (receiver : Value) (name : String) (value : Value) : Act Unit :=
  match w.classes.property? receiver.classRef name with
  | some property => do
    -- the conversion comes first: if it fails, nothing has changed
    let target := w.classes.resolve receiver.runtimeType property.type
    match property.kind, receiver with
    | .slot i, .object h _ => Act.setSlot h i (← w.convertTo target value)
    | .computed _ (some set), _ =>
      let _ ← w.invoke set receiver [← w.convertTo target value]
    | _, _ => throw (w.noSuchMember receiver name)
  | none =>
    match w.classes.setterMethod? receiver.classRef name with
    | some setter => do
      let args ← w.bindArgs (w.paramTypesOn receiver setter) [value]
      let _ ← w.invoke setter.code receiver args
    | none => throw (w.noSuchMember receiver name)

/-- Write a property. The value is converted to the type of the property. -/
def setProperty (w : World) (receiver : Value) (name : String) (value : Value) : Act Unit :=
  match receiver with
  | .null => throw (.nullReceiver name)
  | .map h => do
    let _ ← Act.mapPut h (.str name) value
  | _ => w.setMember receiver name value

/-! ## Methods -/

/-- The types of arguments, with commas between them. -/
def describeArgs (w : World) (args : List Value) : String :=
  ", ".intercalate (args.map (·.typeName w.classes))

/-- The candidate that fits the arguments, with its parameter types as seen from the owner. Where several fit
equally well, the first of them is taken. -/
def select? (w : World) (candidates : List Method) (owner : Ty) (args : List Value) :
    Option (Method × List Ty) :=
  let params := candidates.map (w.classes.paramTypes owner)
  let index? :=
    match Overload.resolve w.classes params (args.map Value.runtimeType) w.canCoerce with
    | .unique i _ => some i
    -- a run does not stop for a choice that types cannot make
    | .ambiguous is => is.head?
    | .deferred => params.findIdx? (fun p : List Ty => p.length = args.length)
    | .noMatch => none
  index?.bind fun i =>
    match candidates[i]?, params[i]? with
    | some m, some ps => some (m, ps)
    | _, _ => none

/-- Call the candidate that fits the arguments. -/
def callOverloaded (w : World) (candidates : List Method) (owner : Ty) (receiver : Value) (name : String)
    (args : List Value) : Act Value :=
  match w.select? candidates owner args with
  | none => throw (.noApplicableMethod (w.classes.name owner.cls) name (w.describeArgs args))
  | some (m, params) => do
    let args ← w.bindArgs params args
    w.invoke m.code receiver args

/-- Call a method that the class of the receiver determines. -/
def callMember (w : World) (receiver : Value) (name : String) (args : List Value) : Act Value :=
  match w.classes.methods receiver.classRef name with
  | [] => throw (w.noSuchMember receiver name)
  | candidates => w.callOverloaded candidates receiver.runtimeType receiver name args

/-- Call a method. On a class value, the static methods of the class go before the methods of class values. -/
def callMethod (w : World) (receiver : Value) (name : String) (args : List Value) : Act Value :=
  match receiver with
  | .null => throw (.nullReceiver name)
  | .cls c =>
    match w.classes.staticMethods c name with
    | [] => w.callMember receiver name args
    | statics => w.callOverloaded statics (.raw c) receiver name args
  | _ => w.callMember receiver name args

/-! ## Items -/

/-- A value as a position below a length. -/
def position (w : World) (index : Value) (length : Nat) : Act Nat := do
  let n ←
    match index.toInt64? with
    | some n => pure n.toInt
    | none => do
      let converted ← w.convert index (.builtin .long)
      -- null stays null and is no position
      pure ((converted.toInt64?.map Int64.toInt).getD (-1))
  if 0 ≤ n ∧ n < length then return n.toNat
  else throw (.indexOutOfBounds n length)

/-- Read an item of a sequence. -/
def getItem (w : World) (h : Handle) (index : Value) : Act Value := do
  let i ← w.position index (← Act.items h).length
  return valueAt (← Act.items h) i

/-- Store an item of a list. -/
def setItem (w : World) (h : Handle) (index value : Value) : Act Unit := do
  let i ← w.position index (← Act.items h).length
  Act.setItems h ((← Act.items h).set i value)

/-- Read what stands at an index. -/
def getIndex (w : World) (receiver index : Value) : Act Value :=
  match receiver with
  | .null => throw (.nullReceiver "[]")
  | .list h | .array h _ => w.getItem h index
  | .map h => do return (← Act.mapGet? h index).getD .null
  | _ => throw (.notIndexable (receiver.typeName w.classes))

/-- Store a value at an index. Arrays convert it to the type of their items. -/
def setIndex (w : World) (receiver index value : Value) : Act Unit :=
  match receiver with
  | .null => throw (.nullReceiver "[]")
  | .list h => w.setItem h index value
  | .array h item => do
    let i ← w.position index (← Act.items h).length
    let value ← w.convertTo item value
    Act.setItems h ((← Act.items h).set i value)
  | .map h => do
    let _ ← Act.mapPut h index value
  | _ => throw (.notIndexable (receiver.typeName w.classes))

/-! ## Construction -/

/-- A new value of a class that has no constructors. -/
def constructPlain (w : World) (c : ClassRef) : Act Value :=
  match c with
  | .builtin .list => Act.newList []
  | .builtin .map => Act.newMap []
  | .host _ => (.object · c) <$> Act.newSlots w.classes c
  | _ => throw (.noApplicableMethod (w.classes.name c) "new" "")

/-- A new value of a class. The constructor is given by its place if it is known already, otherwise it is chosen
by the arguments. -/
def construct (w : World) (c : ClassRef) (args : List Value) (chosen : Option Nat) : Act Value :=
  let constructors := (w.classes.get c).constructors
  if constructors.isEmpty && args.isEmpty then w.constructPlain c
  else
    match chosen.bind (constructors[·]?) with
    | some m => do
      let args ← w.bindArgs (w.classes.paramTypes (.raw c) m) args
      w.invoke m.code (.cls c) args
    | none => w.callOverloaded constructors (.raw c) (.cls c) "new" args

end World

end HostExpr
