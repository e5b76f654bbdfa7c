/-!
# Classes by name, and types

A class is either one of the built-in ones or one that the host has defined; host classes are known by the
order in which they were defined. A type is a class with type arguments: `List<String>`, `Integer[]`.
-/

namespace HostExpr

/-- The built-in classes. -/
inductive Builtin
  | object
  | null
  | boolean
  | integer
  | long
  | double
  | string
  | list
  | map
  | array
  | cls
deriving DecidableEq, Repr, Inhabited

/-- A class. -/
inductive ClassRef
  | builtin (b : Builtin)
  | host (index : Nat)
deriving DecidableEq, Repr, Inhabited

namespace ClassRef

/-- The class that says nothing about a value: members are looked up when the program runs. -/
def isDynamic (c : ClassRef) : Bool := c = .builtin .object

/-- The classes of numbers. -/
def isNumeric : ClassRef → Bool
  | .builtin .integer | .builtin .long | .builtin .double => true
  | _ => false

end ClassRef

/-- A class with type arguments. A type without arguments is raw: nothing is known about them. -/
inductive Ty
  | mk (cls : ClassRef) (args : List Ty)
deriving Inhabited

namespace Ty

mutual

/-- Types are compared by class and arguments. -/
def decEq : (a b : Ty) → Decidable (a = b)
  | mk c as, mk d bs =>
    if h : c = d then
      match decEqList as bs with
      | isTrue h' => isTrue (by rw [h, h'])
      | isFalse h' => isFalse (by intro e; cases e; exact h' rfl)
    else isFalse (by intro e; cases e; exact h rfl)

/-- Lists of types are compared item by item. -/
def decEqList : (as bs : List Ty) → Decidable (as = bs)
  | [], [] => isTrue rfl
  | [], _ :: _ => isFalse (by intro h; cases h)
  | _ :: _, [] => isFalse (by intro h; cases h)
  | a :: as, b :: bs =>
    match decEq a b with
    | isTrue h =>
      match decEqList as bs with
      | isTrue h' => isTrue (by rw [h, h'])
      | isFalse h' => isFalse (by intro e; cases e; exact h' rfl)
    | isFalse h => isFalse (by intro e; cases e; exact h rfl)

end

instance : DecidableEq Ty := decEq

/-- The class of a type. -/
def cls : Ty → ClassRef
  | mk c _ => c

/-- The type arguments of a type. -/
def args : Ty → List Ty
  | mk _ as => as

/-- A class without type arguments. -/
def raw (c : ClassRef) : Ty := mk c []

def object : Ty := raw (.builtin .object)
def null : Ty := raw (.builtin .null)
def boolean : Ty := raw (.builtin .boolean)
def integer : Ty := raw (.builtin .integer)
def long : Ty := raw (.builtin .long)
def double : Ty := raw (.builtin .double)
def string : Ty := raw (.builtin .string)

/-- Lists with items of a type. -/
def listOf (item : Ty) : Ty := mk (.builtin .list) [item]

/-- Maps from one type to another. -/
def mapOf (key value : Ty) : Ty := mk (.builtin .map) [key, value]

/-- Arrays with items of a type. -/
def arrayOf (item : Ty) : Ty := mk (.builtin .array) [item]

/-- The type of a class used as a value. -/
def classOf (c : ClassRef) : Ty := mk (.builtin .cls) [raw c]

def isDynamic (t : Ty) : Bool := t.cls.isDynamic
def isNumeric (t : Ty) : Bool := t.cls.isNumeric
def isNull (t : Ty) : Bool := t.cls = .builtin .null
def isString (t : Ty) : Bool := t.cls = .builtin .string
def isBoolean (t : Ty) : Bool := t.cls = .builtin .boolean
def isArray (t : Ty) : Bool := t.cls = .builtin .array

/-- A type argument, `Object` where it is not given. -/
def argOr (t : Ty) (i : Nat) : Ty := t.args[i]?.getD object

/-- The type of the items of an array or list. -/
def itemType (t : Ty) : Ty :=
  match t.cls with
  | .builtin .array | .builtin .list => t.argOr 0
  | _ => object

/-- The type of the keys of a map. -/
def keyType (t : Ty) : Ty :=
  match t.cls with
  | .builtin .map => t.argOr 0
  | _ => object

/-- The type of the values of a map. -/
def valueType (t : Ty) : Ty :=
  match t.cls with
  | .builtin .map => t.argOr 1
  | _ => object

end Ty

/-- A type in the signature of a member, as seen from any class that has the member. -/
inductive TypeRef
  /-- The class of the receiver. -/
  | self
  /-- A type variable of the receiver's class. -/
  | var (name : String)
  | cls (c : ClassRef) (args : List TypeRef)
deriving Inhabited

namespace TypeRef

/-- A class without type arguments. -/
def raw (c : ClassRef) : TypeRef := cls c []

/-- The class that a signature type stands for when nothing is known about the receiver. -/
def erased : TypeRef → ClassRef
  | self | var _ => .builtin .object
  | cls c _ => c

mutual

/-- The signature type that does not depend on the receiver. -/
def ofTy : Ty → TypeRef
  | .mk c as => cls c (ofTys as)

def ofTys : List Ty → List TypeRef
  | [] => []
  | t :: ts => ofTy t :: ofTys ts

end

mutual

/-- The signature type as seen from a receiver: its class for `self`, and for a type parameter the receiver's
argument in that place, or `Object` where the receiver has none. -/
def resolve (params : List String) (receiver : Ty) : TypeRef → Ty
  | self => .raw receiver.cls
  | var name =>
    match params.findIdx? (· = name) with
    | some i => receiver.argOr i
    | none => .object
  | cls c as => .mk c (resolveAll params receiver as)

/-- Signature types in a row, as seen from a receiver. -/
def resolveAll (params : List String) (receiver : Ty) : List TypeRef → List Ty
  | [] => []
  | t :: ts => resolve params receiver t :: resolveAll params receiver ts

end

end TypeRef

end HostExpr
