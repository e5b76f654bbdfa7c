import HostExpr.Class.Builtin
import HostExpr.Text.Casing

/-!
# Looking members up

What a class has is what it defines and what its superclasses define. The lineage of a class lists it and its
superclasses, the most derived first, and of several members of one name the first in the lineage counts.
-/

namespace HostExpr

/-- The classes that the host has defined, in order. A class can only extend one that was defined before it. -/
structure Classes where
  defs : List ClassDef

namespace Classes

/-- No classes but the built-in ones. -/
def builtinOnly : Classes := ⟨[]⟩

/-- The definition of a class. -/
def get (cs : Classes) : ClassRef → ClassDef
  | .builtin b => b.toDef
  | .host n => cs.defs[n]?.getD (.bare "" none none)

/-- The superclasses of a host class, itself first; `fuel` is more than the number of the class. -/
def hostLineage (cs : Classes) : Nat → Nat → List ClassRef
  | 0, _ => []
  | fuel + 1, n =>
    .host n ::
      match (cs.get (.host n)).super? with
      | some (.builtin b) => b.lineage
      | some (.host m) => if m < n then hostLineage cs fuel m else []
      | none => []

/-- A class and its superclasses, the most derived first. -/
def lineage (cs : Classes) : ClassRef → List ClassRef
  | .builtin b => b.lineage
  | .host n => cs.hostLineage (n + 1) n

/-- The simple name of a class. -/
def name (cs : Classes) (c : ClassRef) : String := (cs.get c).name

/-- The name of a class with its package in front. -/
def qualifiedName (cs : Classes) (c : ClassRef) : String := (cs.get c).qualifiedName

/-- How many superclasses a class has. -/
def depth (cs : Classes) (c : ClassRef) : Nat := (cs.lineage c).length - 1

/-- Values of class `c` can stand where `d` is expected. Every class is one of `Object`, and null stands
everywhere. -/
def isSubclass (cs : Classes) (c d : ClassRef) : Bool :=
  d.isDynamic || c = .builtin .null || d ∈ cs.lineage c

/-- The definitions of a class and its superclasses. -/
def ancestry (cs : Classes) (c : ClassRef) : List ClassDef := (cs.lineage c).map cs.get

/-- The property of a name, the most derived one. -/
def property? (cs : Classes) (c : ClassRef) (name : String) : Option Property :=
  ((cs.ancestry c).flatMap ClassDef.properties).find? (·.name = name)

/-- The methods of a name, the most derived first. -/
def methods (cs : Classes) (c : ClassRef) (name : String) : List Method :=
  visibleMethods (((cs.ancestry c).flatMap ClassDef.methods).filter (·.name = name))

/-- The static methods of a name, the most derived first. -/
def staticMethods (cs : Classes) (c : ClassRef) (name : String) : List Method :=
  visibleMethods (((cs.ancestry c).flatMap ClassDef.staticMethods).filter (·.name = name))

/-- Whether the class has a method of a name. -/
def hasMethod (cs : Classes) (c : ClassRef) (name : String) : Bool :=
  ((cs.ancestry c).flatMap ClassDef.methods).any (·.name = name)

/-- The static field of a name, the most derived one. -/
def staticField? (cs : Classes) (c : ClassRef) (name : String) : Option StaticField :=
  ((cs.ancestry c).flatMap ClassDef.staticFields).find? (·.name = name)

/-- The first method of a name that takes a number of arguments. -/
def methodOfArity? (cs : Classes) (c : ClassRef) (name : String) (arity : Nat) : Option Method :=
  (cs.methods c name).find? (·.arity = arity)

/-- The method that stands for reading a property: `getX` or `isX` without arguments. -/
def getterMethod? (cs : Classes) (c : ClassRef) (property : String) : Option Method :=
  (capitalized? property).bind fun capital =>
    (cs.methodOfArity? c ("get" ++ capital) 0).or (cs.methodOfArity? c ("is" ++ capital) 0)

/-- The method that stands for writing a property: `setX` with one argument. -/
def setterMethod? (cs : Classes) (c : ClassRef) (property : String) : Option Method :=
  (capitalized? property).bind fun capital => cs.methodOfArity? c ("set" ++ capital) 1

/-- A signature type as seen from a receiver. -/
def resolve (cs : Classes) (receiver : Ty) (t : TypeRef) : Ty :=
  t.resolve (cs.get receiver.cls).typeParams receiver

/-- The parameter types of a method as seen from a receiver. -/
def paramTypes (cs : Classes) (receiver : Ty) (m : Method) : List Ty :=
  m.params.map (cs.resolve receiver)

end Classes

end HostExpr
