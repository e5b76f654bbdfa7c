import HostExpr.Class.Code
import HostExpr.Value.Basic

/-!
# Classes

A class has a name, a superclass, and members: properties, methods, static methods, static fields and
constructors. A property is a slot of the instance, or computed by code. Instances have the slots of the
superclass first.
-/

namespace HostExpr

/-- How a property is read and written. A computed property that lacks one of the two cannot be read, or cannot
be written. -/
inductive PropertyKind
  | slot (index : Nat)
  | computed (get set : Option Code)
deriving DecidableEq, Repr

/-- A named value of an instance. -/
structure Property where
  name : String
  type : TypeRef
  kind : PropertyKind

/-- Whether the property can be read. -/
def Property.isReadable (p : Property) : Bool :=
  match p.kind with
  | .slot _ => true
  | .computed get _ => get.isSome

/-- Whether the property can be written. -/
def Property.isWritable (p : Property) : Bool :=
  match p.kind with
  | .slot _ => true
  | .computed _ set => set.isSome

/-- A method, static method or constructor, with the name of the class that declares it. -/
structure Method where
  name : String
  params : List TypeRef
  result : TypeRef
  declaring : String
  code : Code

/-- How many arguments the method takes. -/
def Method.arity (m : Method) : Nat := m.params.length

/-- The parameters' classes, as they are told apart by overriding. -/
def Method.erasure (m : Method) : List ClassRef := m.params.map TypeRef.erased

/-- A method overrides another of the same name and the same parameter classes. -/
def Method.sameSignature (m n : Method) : Bool := m.name = n.name && m.erasure = n.erasure

/-- The methods that no earlier one in the list overrides. -/
def visibleMethods (ms : List Method) : List Method :=
  ms.foldl (fun seen m => if seen.any (·.sameSignature m) then seen else seen ++ [m]) []

/-- A constant of a class. -/
structure StaticField where
  name : String
  type : Ty
  value : Value

/-- The definition of a class; members and slots of the superclass are not repeated, except that `slotDefaults`
has a default for every slot. -/
structure ClassDef where
  name : String
  package? : Option String
  super? : Option ClassRef
  typeParams : List String
  properties : List Property
  methods : List Method
  staticMethods : List Method
  staticFields : List StaticField
  constructors : List Method
  slotDefaults : List Value

namespace ClassDef

/-- A class without members. -/
def bare (name : String) (package? : Option String) (super? : Option ClassRef) : ClassDef where
  name := name
  package? := package?
  super? := super?
  typeParams := []
  properties := []
  methods := []
  staticMethods := []
  staticFields := []
  constructors := []
  slotDefaults := []

/-- The name of the class with its package in front. -/
def qualifiedName (d : ClassDef) : String :=
  match d.package? with
  | some package => package ++ "." ++ d.name
  | none => d.name

end ClassDef

end HostExpr
