import HostExpr.Value.Intrinsic

/-!
# The world of a program

What the host provides: its classes and functions, the bodies of their members, and conversions to its classes.
Bodies and conversions are arbitrary computations on the heap. Everything that a program asks of them, or of a
built-in class, goes through `invoke` and is recorded in the trace.
-/

namespace HostExpr

/-- A function of the host; its body is called without a receiver. -/
structure Function where
  name : String
  params : List Ty
  result : Ty
  code : Code

/-- A conversion to a class that the host provides, for values of the classes it accepts. -/
structure Handler where
  accepts : ClassRef → Bool
  convert : Value → HeapAct ConversionError Value

/-- What the host provides. Of several conversions to one class, the first in the list counts. -/
structure World where
  classes : Classes
  functions : List Function
  native : Nat → Value → List Value → HeapAct RuntimeError Value
  handlers : List (ClassRef × Handler)

/-- The world without host classes, functions and conversions. -/
def World.bare : World where
  classes := .builtinOnly
  functions := []
  native := fun _ _ _ => return .null
  handlers := []

namespace Act

/-- A computation on the heap as one on the store. -/
def liftHeap {ε α : Type} (onError : ε → RuntimeError) (act : HeapAct ε α) : Act α := fun s =>
  match act s.heap with
  | (.ok a, heap) => (.ok a, { s with heap := heap })
  | (.error e, heap) => (.error (onError e), { s with heap := heap })

/-- The slots of a new instance of a class, each with its default value. -/
def newSlots (cs : Classes) (c : ClassRef) : Act Handle := alloc (.items (cs.get c).slotDefaults)

/-- Store a value into a slot; a slot that is not there takes none. -/
def setSlot (h : Handle) (slot : Nat) (v : Value) : Act Unit := do
  setItems h ((← items h).set slot v)

/-- The value of a slot; a slot that is not there is null. -/
def slot (h : Handle) (slot : Nat) : Act Value := do return valueAt (← items h) slot

end Act

namespace World

/-- Run code on a receiver with arguments. -/
def run (w : World) (receiver : Value) (args : List Value) : Code → Act Value
  | .intrinsic op => op.run w.classes receiver args
  | .initSlots slots =>
    match receiver with
    | .cls c => do
      let h ← Act.newSlots w.classes c
      (slots.zip args).forM fun (slot, v) => Act.setSlot h slot v
      return .object h c
    | _ => throw (.notCallable "constructor without class")
  | .host body => Act.liftHeap id (w.native body receiver args)

/-- Run code and record what came of it. -/
def invoke (w : World) (code : Code) (receiver : Value) (args : List Value) : Act Value := fun s =>
  match w.run receiver args code s with
  | (outcome, s) => (outcome, { s with trace := .ran code receiver args outcome :: s.trace })

end World

end HostExpr
