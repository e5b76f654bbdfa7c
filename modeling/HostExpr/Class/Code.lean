/-!
# What members run

A member of a class names the code that it runs: an operation of a built-in class, a store of constructor
arguments into slots, or a body that the host supplies and knows by a number.
-/

namespace HostExpr

/-- The operations of the built-in classes. -/
inductive Intrinsic
  | objectToString
  | objectEquals
  | stringLength
  | stringIsEmpty
  | stringToUpperCase
  | stringToLowerCase
  | stringTrim
  | stringSubstringFrom
  | stringSubstring
  | stringContains
  | stringStartsWith
  | stringEndsWith
  | stringIndexOf
  | stringConcat
  | stringReplace
  | stringEqualsIgnoreCase
  | stringValueOf
  | numberIntValue
  | numberLongValue
  | numberDoubleValue
  | integerParse
  | integerValueOf
  | longParse
  | doubleParse
  | listNew
  | listSize
  | listIsEmpty
  | listGet
  | listAdd
  | listSet
  | listRemove
  | listContains
  | listIndexOf
  | listClear
  | mapNew
  | mapSize
  | mapIsEmpty
  | mapGet
  | mapPut
  | mapContainsKey
  | mapRemove
  | mapKeySet
  | mapValues
  | arrayLength
  | classGetName
  | classGetSimpleName
deriving DecidableEq, Repr

/-- The code of a member. -/
inductive Code
  | intrinsic (op : Intrinsic)
  /-- A new instance, with the arguments stored into the given slots in order. -/
  | initSlots (slots : List Nat)
  | host (id : Nat)
deriving DecidableEq, Repr

end HostExpr
