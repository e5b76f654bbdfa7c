import HostExpr.Class.Lookup

/-!
# Classes in the making

The host builds a class member by member. A field takes the next free slot, behind those of the superclass. A
field constructor names the fields that its arguments go to; which slots these are is decided when the class is
finished.
-/

namespace HostExpr

/-- A class in the making. -/
structure Draft where
  name : String
  package? : Option String
  super? : Option ClassRef
  typeParams : List String
  properties : List Property
  methods : List Method
  staticMethods : List Method
  staticFields : List StaticField
  constructors : List Method
  fieldConstructors : List (List String)
  slotDefaults : List Value
  ownSlots : List (String × TypeRef)

namespace Draft

/-- A class without members that extends `Object`. -/
def ofName (name : String) (package? : Option String) : Draft where
  name := name
  package? := package?
  super? := some (.builtin .object)
  typeParams := []
  properties := []
  methods := []
  staticMethods := []
  staticFields := []
  constructors := []
  fieldConstructors := []
  slotDefaults := []
  ownSlots := []

/-- Extend another class, before any field is added. -/
def extending (cs : Classes) (d : Draft) (c : ClassRef) : Draft :=
  { d with super? := some c, slotDefaults := (cs.get c).slotDefaults }

/-- Add type variables. -/
def withTypeParams (d : Draft) (names : List String) : Draft :=
  { d with typeParams := d.typeParams ++ names }

/-- Add a field: a slot that starts with a default value, and the property to read and write it. -/
def field (d : Draft) (name : String) (type : TypeRef) (default : Value) : Draft :=
  { d with
    properties := d.properties ++ [⟨name, type, .slot d.slotDefaults.length⟩]
    slotDefaults := d.slotDefaults ++ [default]
    ownSlots := d.ownSlots ++ [(name, type)] }

/-- Add a computed property. -/
def computed (d : Draft) (name : String) (type : TypeRef) (get set : Option Code) : Draft :=
  { d with properties := d.properties ++ [⟨name, type, .computed get set⟩] }

/-- Add a method. -/
def method (d : Draft) (name : String) (params : List TypeRef) (result : TypeRef) (code : Code) : Draft :=
  { d with methods := d.methods ++ [⟨name, params, result, d.name, code⟩] }

/-- Add a static method. -/
def staticMethod (d : Draft) (name : String) (params : List TypeRef) (result : TypeRef) (code : Code) :
    Draft :=
  { d with staticMethods := d.staticMethods ++ [⟨name, params, result, d.name, code⟩] }

/-- Add a constant. -/
def staticField (d : Draft) (name : String) (type : Ty) (value : Value) : Draft :=
  { d with staticFields := d.staticFields ++ [⟨name, type, value⟩] }

/-- A constructor of the class. -/
def constructorOf (d : Draft) (params : List TypeRef) (code : Code) : Method :=
  ⟨"<init>", params, .self, d.name, code⟩

/-- Add a constructor with code of its own. -/
def constructor (d : Draft) (params : List TypeRef) (code : Code) : Draft :=
  { d with constructors := d.constructors ++ [d.constructorOf params code] }

/-- Add a constructor that stores its arguments into fields. -/
def fieldConstructor (d : Draft) (fields : List String) : Draft :=
  { d with fieldConstructors := d.fieldConstructors ++ [fields] }

/-- How many slots the superclass has. -/
def inheritedSlots (d : Draft) : Nat := d.slotDefaults.length - d.ownSlots.length

/-- The slot of a field and its type: the first own field of the name, otherwise the superclass's. -/
def slotOf? (cs : Classes) (d : Draft) (field : String) : Option (Nat × TypeRef) :=
  match d.ownSlots.findIdx? (·.1 = field), d.ownSlots.lookup field with
  -- own slots come behind the inherited ones
  | some i, some type => some (d.inheritedSlots + i, type)
  | _, _ =>
    match d.super?.bind (cs.property? · field) with
    | some p =>
      match p.kind with
      | .slot i => some (i, p.type)
      | .computed _ _ => none
    | none => none

/-- The constructor for a list of fields; names that are no fields are left out. -/
def fieldConstructorOf (cs : Classes) (d : Draft) (fields : List String) : Method :=
  let slots := fields.filterMap (d.slotOf? cs)
  d.constructorOf (slots.map Prod.snd) (.initSlots (slots.map Prod.fst))

/-- The finished class. Field constructors come behind the others. -/
def finish (cs : Classes) (d : Draft) : ClassDef where
  name := d.name
  package? := d.package?
  super? := d.super?
  typeParams := d.typeParams
  properties := d.properties
  methods := d.methods
  staticMethods := d.staticMethods
  staticFields := d.staticFields
  constructors := d.constructors ++ d.fieldConstructors.map (d.fieldConstructorOf cs)
  slotDefaults := d.slotDefaults

end Draft

/-- Define a class; gives it its name. -/
def Classes.define (cs : Classes) (d : Draft) : ClassRef × Classes :=
  (.host cs.defs.length, ⟨cs.defs ++ [d.finish cs]⟩)

end HostExpr
