import HostExpr.Type.Basic

/-!
# Values

Scalars are values in themselves. A container or an instance is a handle to a cell of the heap, so that all who
hold it see its changes; what never changes about it, the type of an array's items and the class of an
instance, is part of the value.
-/

namespace HostExpr

/-- The place of a container or instance in the heap. -/
abbrev Handle := Nat

/-- A value. -/
inductive Value
  | null
  | bool (b : Bool)
  | int (i : Int32)
  | long (l : Int64)
  | double (d : Float)
  | str (s : String)
  | list (h : Handle)
  | map (h : Handle)
  | array (h : Handle) (item : Ty)
  | object (h : Handle) (cls : ClassRef)
  | cls (c : ClassRef)
deriving DecidableEq, Inhabited

namespace Value

def isNull (v : Value) : Bool := v = null

/-- The class of a value. -/
def classRef : Value → ClassRef
  | null => .builtin .null
  | bool _ => .builtin .boolean
  | int _ => .builtin .integer
  | long _ => .builtin .long
  | double _ => .builtin .double
  | str _ => .builtin .string
  | list _ => .builtin .list
  | map _ => .builtin .map
  | array _ _ => .builtin .array
  | object _ c => c
  | cls _ => .builtin .cls

/-- The most precise type that a value shows by itself: type arguments are known of arrays and classes only. -/
def runtimeType : Value → Ty
  | array _ item => .arrayOf item
  | cls c => .classOf c
  | v => .raw v.classRef

def isNumeric : Value → Bool
  | int _ | long _ | double _ => true
  | _ => false

/-- The value of an integer. -/
def toInt64? : Value → Option Int64
  | int i => some i.toInt64
  | long l => some l
  | _ => none

/-- The value of a number, rounded if it is too long. -/
def toFloat? : Value → Option Float
  | int i => some i.toFloat
  | long l => some l.toFloat
  | double d => some d
  | _ => none

end Value

/-- A map's contents, in the order in which the keys were first put. -/
abbrev Entries := List (Value × Value)

end HostExpr
