import HostExpr.World.Basic

/-!
# Simple host bodies

Bodies that a host can give to members and conversions without code of its own: constants, access to slots,
and new instances.
-/

namespace HostExpr

/-- A body of a member. Slots are named by their fields, arguments by their positions. -/
inductive Body
  | const (v : Value)
  | arg (i : Nat)
  | receiver
  | get (field : String)
  /-- Store an argument into a slot; tells whether there is one. -/
  | put (field : String) (i : Nat)
  /-- Add an integer argument to an integer slot. -/
  | addTo (field : String) (i : Nat)
  /-- A text made of a label and the arguments. -/
  | describe (label : String)
  | fail (message : String)
  /-- A new instance of the class that is the receiver. -/
  | make (fields : List (String × Nat))
deriving Inhabited

/-- The instance and the slot that a field of a value names, if the value is an instance with such a slot. -/
def slotNamed? (cs : Classes) (v : Value) (field : String) : Option (Handle × Nat) :=
  match v with
  | .object h c =>
    match (cs.property? c field).map Property.kind with
    | some (.slot i) => some (h, i)
    | _ => none
  | _ => none

/-- Store a value into a named slot; tells whether there is one. -/
def Heap.putSlot (heap : Heap) (cs : Classes) (owner : Value) (field : String) (v : Value) : Bool × Heap :=
  match slotNamed? cs owner field with
  | some (h, i) => (true, heap.put h (.items ((heap.items h).set i v)))
  | none => (false, heap)

/-- The value of a named slot. -/
def Heap.getSlot? (heap : Heap) (cs : Classes) (owner : Value) (field : String) : Option Value :=
  (slotNamed? cs owner field).map fun (h, i) => valueAt (heap.items h) i

/-- A new instance with some slots set. -/
def Heap.newInstance (heap : Heap) (cs : Classes) (c : ClassRef) (fields : List (String × Value)) :
    Value × Heap :=
  let (h, heap) := heap.alloc (.items (cs.get c).slotDefaults)
  let v := Value.object h c
  (v, fields.foldl (fun heap (field, w) => (heap.putSlot cs v field w).2) heap)

/-- An integer as a long, anything else as zero. -/
def Value.toInt64OrZero (v : Value) : Int64 := v.toInt64?.getD 0

/-- A value with its type in front. -/
def Heap.described? (heap : Heap) (cs : Classes) (v : Value) : Option String :=
  (heap.text? cs v).map fun text => v.typeName cs ++ ":" ++ text

/-- Run a body. -/
def Body.run (cs : Classes) (receiver : Value) (args : List Value) : Body → HeapAct RuntimeError Value
  | const v => return v
  | arg i => return valueAt args i
  | .receiver => return receiver
  | get field => do return ((← MonadState.get).getSlot? cs receiver field).getD .null
  | put field i => modifyGet fun heap =>
    let (done, heap) := heap.putSlot cs receiver field (valueAt args i)
    (.bool done, heap)
  | addTo field i => modifyGet fun heap =>
    let old := ((heap.getSlot? cs receiver field).getD .null).toInt64OrZero
    let new := Value.int (old + (valueAt args i).toInt64OrZero).toInt32
    (new, (heap.putSlot cs receiver field new).2)
  | describe label => do
    match args.mapM ((← MonadState.get).described? cs) with
    | some texts => return .str (label ++ "(" ++ ", ".intercalate texts ++ ")")
    | none => throw .selfContaining
  | fail message => throw (.host ⟨message⟩)
  | make fields =>
    match receiver with
    | .cls c => modifyGet fun heap =>
      heap.newInstance cs c (fields.map fun (field, i) => (field, valueAt args i))
    | _ => return .null

/-- What a simple conversion does. -/
inductive Wrapping
  /-- A new instance with the value in a field. -/
  | wrap (field : String)
  /-- A new instance whose fields are the integers in a text, with `-` between them. -/
  | split (fields : List String)
  | fail (detail : String)
deriving Inhabited

/-- Run a simple conversion to a class. -/
def Wrapping.run (cs : Classes) (target : ClassRef) (v : Value) :
    Wrapping → HeapAct ConversionError Value
  | wrap field => modifyGet fun heap => heap.newInstance cs target [(field, v)]
  | split fields => do
    let failure (detail : String) : ConversionError := ⟨v.typeName cs, cs.name target, some detail⟩
    let text := match v with
      | .str s => s.toList
      | _ => []
    let parts := text.splitOn '-'
    if parts.length ≠ fields.length then throw (failure "wrong number of parts")
    match parts.mapM int32? with
    | some numbers => modifyGet fun heap =>
      heap.newInstance cs target (fields.zip (numbers.map .int))
    | none => throw (failure "part is not a number")
  | fail detail => throw ⟨v.typeName cs, cs.name target, some detail⟩

/-- A simple conversion from some classes to another. -/
def Wrapping.handler (cs : Classes) (target : ClassRef) (sources : List ClassRef) (w : Wrapping) : Handler where
  accepts c := c ∈ sources
  convert v := w.run cs target v

/-- The world of a host all of whose bodies are simple; a body is known by its place in the list. -/
def World.ofBodies (classes : Classes) (functions : List Function) (bodies : List Body)
    (handlers : List (ClassRef × Handler)) : World where
  classes := classes
  functions := functions
  native id receiver args :=
    match bodies[id]? with
    | some body => body.run classes receiver args
    | none => return .null
  handlers := handlers

end HostExpr
