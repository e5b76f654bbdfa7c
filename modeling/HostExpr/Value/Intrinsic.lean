import HostExpr.Text.Basic
import HostExpr.Value.Container
import HostExpr.Value.Text

/-!
# The operations of the built-in classes

What the methods of the built-in classes do. Positions in texts count characters; a text argument of another
class stands for its displayed form.
-/

namespace HostExpr

/-! ## Arguments and results -/

/-- A count as an int. -/
def countValue (n : Nat) : Value := .int (Int32.ofNat n)

/-- A position, or -1 where there is none. -/
def positionValue : Option Nat → Value
  | some n => countValue n
  | none => .int (-1)

/-- The text that a value stands for where a text is wanted. -/
def Act.textOf (cs : Classes) : Value → Act String
  | .str s => return s
  | v => Act.text cs v

/-- The failure of an operation on a value of the wrong class. -/
def mismatch (cs : Classes) (method expected : String) (found : Value) : RuntimeError :=
  .argumentMismatch method expected (found.typeName cs)

/-- A position below a length. -/
def checkedIndex (index : Int32) (length : Nat) : Act Nat :=
  if 0 ≤ index.toInt ∧ index.toInt < length then return index.toInt.toNat
  else throw (.indexOutOfBounds index.toInt length)

/-- An int argument. -/
def intArg (cs : Classes) (method : String) : Value → Act Int32
  | .int i => return i
  | v => throw (mismatch cs method "an Integer" v)

/-- A text argument or receiver. -/
def strArg (cs : Classes) (method : String) : Value → Act String
  | .str s => return s
  | v => throw (mismatch cs method "a String" v)

/-- The handle of a list that a list operation is called on. -/
def listArg (cs : Classes) (method : String) : Value → Act Handle
  | .list h => return h
  | v => throw (mismatch cs method "a List" v)

/-- The handle of a map that a map operation is called on. -/
def mapArg (cs : Classes) (method : String) : Value → Act Handle
  | .map h => return h
  | v => throw (mismatch cs method "a Map" v)

/-- A number that a text spells. -/
def parsed (method : String) (s : String) (read : List Char → Option Value) : Act Value :=
  match read (trimmed s.toList) with
  | some v => return v
  | none => throw (.argumentMismatch method "a numeric string" ("'" ++ s ++ "'"))

namespace Intrinsic

/-- The operations on texts. -/
def runString (cs : Classes) (this : Value) (args : List Value) : Intrinsic → Act Value
  | stringLength => do
    let s ← strArg cs "length" this
    return countValue s.toList.length
  | stringIsEmpty => do
    let s ← strArg cs "isEmpty" this
    return .bool s.toList.isEmpty
  | stringToUpperCase => do
    let s ← strArg cs "toUpperCase" this
    return .str (upperCase s)
  | stringToLowerCase => do
    let s ← strArg cs "toLowerCase" this
    return .str (lowerCase s)
  | stringTrim => do
    let s ← strArg cs "trim" this
    return .str (String.ofList (trimmed s.toList))
  | stringSubstringFrom => do
    let s ← strArg cs "substring" this
    let start ← intArg cs "substring" (valueAt args 0)
    let length := s.toList.length
    let start ← if start.toInt = length then pure length else checkedIndex start length
    return .str (String.ofList (s.toList.drop start))
  | stringSubstring => do
    let s ← strArg cs "substring" this
    let start ← intArg cs "substring" (valueAt args 0)
    let stop ← intArg cs "substring" (valueAt args 1)
    let length := s.toList.length
    if start.toInt < 0 || stop.toInt < start.toInt || (length : Int) < stop.toInt then
      throw (.indexOutOfBounds stop.toInt length)
    let taken := (s.toList.drop start.toInt.toNat).take (stop.toInt - start.toInt).toNat
    return .str (String.ofList taken)
  | stringContains => do
    let s ← strArg cs "contains" this
    let needle ← Act.textOf cs (valueAt args 0)
    return .bool (find? needle.toList s.toList).isSome
  | stringStartsWith => do
    let s ← strArg cs "startsWith" this
    let needle ← Act.textOf cs (valueAt args 0)
    return .bool (needle.toList.isPrefixOf s.toList)
  | stringEndsWith => do
    let s ← strArg cs "endsWith" this
    let needle ← Act.textOf cs (valueAt args 0)
    return .bool (needle.toList.isSuffixOf s.toList)
  | stringIndexOf => do
    let s ← strArg cs "indexOf" this
    let needle ← Act.textOf cs (valueAt args 0)
    return positionValue (find? needle.toList s.toList)
  | stringConcat => do
    let s ← strArg cs "concat" this
    let more ← Act.textOf cs (valueAt args 0)
    return .str (s ++ more)
  | stringReplace => do
    let s ← strArg cs "replace" this
    let needle ← Act.textOf cs (valueAt args 0)
    let new ← Act.textOf cs (valueAt args 1)
    return .str (String.ofList (replaceAll needle.toList new.toList s.toList))
  | stringEqualsIgnoreCase => do
    let s ← strArg cs "equalsIgnoreCase" this
    match valueAt args 0 with
    | .str other => return .bool (lowerCase s = lowerCase other)
    | _ => return .bool false
  | stringValueOf => do
    let s ← Act.textOf cs (valueAt args 0)
    return .str s
  | _ => return .null

/-- The operations on numbers. -/
def runNumber (cs : Classes) (this : Value) (args : List Value) : Intrinsic → Act Value
  | numberIntValue =>
    match this with
    | .int i => return .int i
    | .long l => return .int l.toInt32
    | .double d => return .int d.toInt32
    | v => throw (mismatch cs "intValue" "a number" v)
  | numberLongValue =>
    match this with
    | .int i => return .long i.toInt64
    | .long l => return .long l
    | .double d => return .long d.toInt64
    | v => throw (mismatch cs "longValue" "a number" v)
  | numberDoubleValue =>
    match this.toFloat? with
    | some d => return .double d
    | none => throw (mismatch cs "doubleValue" "a number" this)
  | integerParse => do
    let s ← strArg cs "parseInt" (valueAt args 0)
    parsed "parseInt" s fun cs => (int32? cs).map .int
  | integerValueOf => do
    let i ← intArg cs "valueOf" (valueAt args 0)
    return .int i
  | longParse => do
    let s ← strArg cs "parseLong" (valueAt args 0)
    parsed "parseLong" s fun cs => (int64? cs).map .long
  | doubleParse => do
    let s ← strArg cs "parseDouble" (valueAt args 0)
    parsed "parseDouble" s fun cs => (double? cs).map .double
  | _ => return .null

/-- The operations on lists and arrays. -/
def runList (cs : Classes) (this : Value) (args : List Value) : Intrinsic → Act Value
  | listNew => Act.newList []
  | listSize => do
    let h ← listArg cs "size" this
    return countValue (← Act.items h).length
  | listIsEmpty => do
    let h ← listArg cs "isEmpty" this
    return .bool (← Act.items h).isEmpty
  | listGet => do
    let h ← listArg cs "get" this
    let i ← intArg cs "get" (valueAt args 0)
    let items ← Act.items h
    let i ← checkedIndex i items.length
    return valueAt items i
  | listAdd => do
    let h ← listArg cs "add" this
    Act.setItems h ((← Act.items h) ++ [valueAt args 0])
    return .bool true
  | listSet => do
    let h ← listArg cs "set" this
    let i ← intArg cs "set" (valueAt args 0)
    let items ← Act.items h
    let i ← checkedIndex i items.length
    Act.setItems h (items.set i (valueAt args 1))
    return valueAt items i
  | listRemove => do
    let h ← listArg cs "remove" this
    let i ← intArg cs "remove" (valueAt args 0)
    let items ← Act.items h
    let i ← checkedIndex i items.length
    Act.setItems h (items.eraseIdx i)
    return valueAt items i
  | listContains => do
    let h ← listArg cs "contains" this
    let heap ← Act.heap
    let found ← Act.ofAnswer (firstEqual heap.equal? (valueAt args 0) 0 (heap.items h))
    return .bool found.isSome
  | listIndexOf => do
    let h ← listArg cs "indexOf" this
    let heap ← Act.heap
    positionValue <$> Act.ofAnswer (firstEqual heap.equal? (valueAt args 0) 0 (heap.items h))
  | listClear => do
    let h ← listArg cs "clear" this
    Act.setItems h []
    return .null
  | arrayLength =>
    match this with
    | .array h _ => do return countValue (← Act.items h).length
    | v => throw (mismatch cs "length" "an array" v)
  | _ => return .null

/-- The operations on maps. -/
def runMap (cs : Classes) (this : Value) (args : List Value) : Intrinsic → Act Value
  | mapNew => Act.newMap []
  | mapSize => do
    let h ← mapArg cs "size" this
    return countValue (← Act.entries h).length
  | mapIsEmpty => do
    let h ← mapArg cs "isEmpty" this
    return .bool (← Act.entries h).isEmpty
  | mapGet => do
    let h ← mapArg cs "get" this
    return (← Act.mapGet? h (valueAt args 0)).getD .null
  | mapPut => do
    let h ← mapArg cs "put" this
    return (← Act.mapPut h (valueAt args 0) (valueAt args 1)).getD .null
  | mapContainsKey => do
    let h ← mapArg cs "containsKey" this
    return .bool (← Act.mapGet? h (valueAt args 0)).isSome
  | mapRemove => do
    let h ← mapArg cs "remove" this
    return (← Act.mapRemove h (valueAt args 0)).getD .null
  | mapKeySet => do
    let h ← mapArg cs "keySet" this
    Act.newList ((← Act.entries h).map Prod.fst)
  | mapValues => do
    let h ← mapArg cs "values" this
    Act.newList ((← Act.entries h).map Prod.snd)
  | _ => return .null

/-- Run an operation on a receiver with arguments. -/
def run (cs : Classes) (op : Intrinsic) (this : Value) (args : List Value) : Act Value :=
  match op with
  | objectToString => do
    let s ← Act.textOf cs this
    return .str s
  | objectEquals => .bool <$> Act.equal this (valueAt args 0)
  | classGetName =>
    match this with
    | .cls c => return .str (cs.qualifiedName c)
    | v => throw (mismatch cs "getName" "a Class" v)
  | classGetSimpleName =>
    match this with
    | .cls c => return .str (cs.name c)
    | v => throw (mismatch cs "getSimpleName" "a Class" v)
  | stringLength | stringIsEmpty | stringToUpperCase | stringToLowerCase | stringTrim
  | stringSubstringFrom | stringSubstring | stringContains | stringStartsWith | stringEndsWith
  | stringIndexOf | stringConcat | stringReplace | stringEqualsIgnoreCase | stringValueOf =>
    op.runString cs this args
  | numberIntValue | numberLongValue | numberDoubleValue | integerParse | integerValueOf | longParse
  | doubleParse => op.runNumber cs this args
  | listNew | listSize | listIsEmpty | listGet | listAdd | listSet | listRemove | listContains
  | listIndexOf | listClear | arrayLength => op.runList cs this args
  | mapNew | mapSize | mapIsEmpty | mapGet | mapPut | mapContainsKey | mapRemove | mapKeySet | mapValues =>
    op.runMap cs this args

end Intrinsic

end HostExpr
