import HostExpr.Class.Basic

/-!
# Built-in classes

The classes that are there without the host: their names, superclasses and members. All of them extend `Object`,
except `Object` itself and the class of null.
-/

namespace HostExpr

/-- A method of a built-in class. -/
private def op (declaring name : String) (params : List TypeRef) (result : TypeRef) (code : Intrinsic) :
    Method :=
  ⟨name, params, result, declaring, .intrinsic code⟩

private def anyRef : TypeRef := .raw (.builtin .object)
private def nullRef : TypeRef := .raw (.builtin .null)
private def boolRef : TypeRef := .raw (.builtin .boolean)
private def intRef : TypeRef := .raw (.builtin .integer)
private def longRef : TypeRef := .raw (.builtin .long)
private def doubleRef : TypeRef := .raw (.builtin .double)
private def strRef : TypeRef := .raw (.builtin .string)
private def listRef (item : TypeRef) : TypeRef := .cls (.builtin .list) [item]

/-- The methods that all numbers have. -/
private def numberMethods (declaring : String) : List Method :=
  [op declaring "intValue" [] intRef .numberIntValue,
    op declaring "longValue" [] longRef .numberLongValue,
    op declaring "doubleValue" [] doubleRef .numberDoubleValue]

namespace Builtin

/-- The simple name of a built-in class. -/
def name : Builtin → String
  | object => "Object"
  | null => "null"
  | boolean => "Boolean"
  | integer => "Integer"
  | long => "Long"
  | double => "Double"
  | string => "String"
  | list => "List"
  | map => "Map"
  | array => "Array"
  | cls => "Class"

/-- The package of a built-in class. -/
def package? : Builtin → Option String
  | null | array => none
  | list | map => some "java.util"
  | _ => some "java.lang"

/-- The type variables of a built-in class. -/
def typeParams : Builtin → List String
  | list | array => ["E"]
  | map => ["K", "V"]
  | cls => ["T"]
  | _ => []

/-- The methods of a built-in class. -/
def methods : Builtin → List Method
  | object =>
    [op "Object" "toString" [] strRef .objectToString,
      op "Object" "equals" [anyRef] boolRef .objectEquals]
  | string =>
    [op "String" "length" [] intRef .stringLength,
      op "String" "isEmpty" [] boolRef .stringIsEmpty,
      op "String" "toUpperCase" [] .self .stringToUpperCase,
      op "String" "toLowerCase" [] .self .stringToLowerCase,
      op "String" "trim" [] .self .stringTrim,
      op "String" "substring" [intRef] .self .stringSubstringFrom,
      op "String" "substring" [intRef, intRef] .self .stringSubstring,
      op "String" "contains" [anyRef] boolRef .stringContains,
      op "String" "startsWith" [anyRef] boolRef .stringStartsWith,
      op "String" "endsWith" [anyRef] boolRef .stringEndsWith,
      op "String" "indexOf" [anyRef] intRef .stringIndexOf,
      op "String" "concat" [anyRef] .self .stringConcat,
      op "String" "replace" [anyRef, anyRef] .self .stringReplace,
      op "String" "equalsIgnoreCase" [anyRef] boolRef .stringEqualsIgnoreCase]
  | integer => numberMethods "Integer"
  | long => numberMethods "Long"
  | double => numberMethods "Double"
  | list =>
    [op "List" "size" [] intRef .listSize,
      op "List" "isEmpty" [] boolRef .listIsEmpty,
      op "List" "get" [intRef] (.var "E") .listGet,
      op "List" "add" [.var "E"] boolRef .listAdd,
      op "List" "set" [intRef, .var "E"] (.var "E") .listSet,
      op "List" "remove" [intRef] (.var "E") .listRemove,
      op "List" "contains" [anyRef] boolRef .listContains,
      op "List" "indexOf" [anyRef] intRef .listIndexOf,
      op "List" "clear" [] nullRef .listClear]
  | map =>
    [op "Map" "size" [] intRef .mapSize,
      op "Map" "isEmpty" [] boolRef .mapIsEmpty,
      op "Map" "get" [anyRef] (.var "V") .mapGet,
      op "Map" "put" [.var "K", .var "V"] (.var "V") .mapPut,
      op "Map" "containsKey" [anyRef] boolRef .mapContainsKey,
      op "Map" "remove" [anyRef] (.var "V") .mapRemove,
      op "Map" "keySet" [] (listRef (.var "K")) .mapKeySet,
      op "Map" "values" [] (listRef (.var "V")) .mapValues]
  | cls =>
    [op "Class" "getName" [] strRef .classGetName,
      op "Class" "getSimpleName" [] strRef .classGetSimpleName]
  | _ => []

/-- The static methods of a built-in class. -/
def staticMethods : Builtin → List Method
  | integer =>
    [op "Integer" "parseInt" [strRef] intRef .integerParse,
      op "Integer" "valueOf" [intRef] intRef .integerValueOf]
  | long => [op "Long" "parseLong" [strRef] longRef .longParse]
  | double => [op "Double" "parseDouble" [strRef] doubleRef .doubleParse]
  | string => [op "String" "valueOf" [anyRef] strRef .stringValueOf]
  | _ => []

/-- The definition of a built-in class. `Object` and the class of null have no superclass. -/
def toDef (b : Builtin) : ClassDef where
  name := b.name
  package? := b.package?
  super? := if b = object ∨ b = null then none else some (.builtin object)
  typeParams := b.typeParams
  properties :=
    match b with
    | array => [⟨"length", intRef, .computed (some (.intrinsic .arrayLength)) none⟩]
    | _ => []
  methods := b.methods
  staticMethods := b.staticMethods
  staticFields := []
  constructors :=
    match b with
    | list => [op "List" "<init>" [] .self .listNew]
    | map => [op "Map" "<init>" [] .self .mapNew]
    | _ => []
  slotDefaults := []

/-- A built-in class and its superclasses. -/
def lineage : Builtin → List ClassRef
  | object => [.builtin object]
  | null => [.builtin null]
  | b => [.builtin b, .builtin object]

end Builtin

end HostExpr
