import HostExpr.Type.Overload
import HostExpr.World.Basic

/-!
# Conversion

A value is made to fit a type where it is stored, passed or asked for. A value that already fits is left as it is.
Otherwise the conversion to the type's class is asked for, if there is one that accepts the value's class.
Arrays are converted item by item to the item type; other type arguments are not enforced.
-/

namespace HostExpr

/-- A conversion to a class: which classes it accepts, and what it does. -/
structure Converter where
  accepts : ClassRef → Bool
  run : Value → Act Value

/-- The classes of texts, numbers and truth values. -/
def isScalar : ClassRef → Bool
  | .builtin .boolean | .builtin .integer | .builtin .long | .builtin .double | .builtin .string => true
  | _ => false

/-- The classes of lists and arrays. -/
def isSequence : ClassRef → Bool
  | .builtin .list | .builtin .array => true
  | _ => false

/-! ## Conversions to the built-in classes -/

/-- The failure of a conversion to a class. -/
def cannotConvert (cs : Classes) (v : Value) (target : String) : RuntimeError :=
  .conversion ⟨v.typeName cs, target, none⟩

/-- The failure of a conversion of a text that does not spell a value of the class. -/
def notValid (v : Value) (cs : Classes) (target text : String) : RuntimeError :=
  .conversion ⟨v.typeName cs, target, some ("'" ++ text ++ "' is not a valid " ++ target)⟩

/-- The int that a text spells; a decimal is truncated. -/
def intOfText? (text : List Char) : Option Int32 :=
  (int32? text).or ((double? text).map Float.toInt32)

/-- To an int: numbers are truncated, a text is read. -/
def toInt (cs : Classes) (v : Value) : Act Value :=
  match v with
  | .int _ => return v
  | .long l => return .int l.toInt32
  | .double d => return .int d.toInt32
  | .bool b => return .int (if b then 1 else 0)
  | .str s =>
    let text := trimmed s.toList
    match intOfText? text with
    | some i => return .int i
    | none => throw (notValid v cs "Integer" (String.ofList text))
  | _ => throw (cannotConvert cs v "Integer")

/-- To a long: numbers are truncated, a text is read, with or without the mark of a long. -/
def toLong (cs : Classes) (v : Value) : Act Value :=
  match v with
  | .int i => return .long i.toInt64
  | .long _ => return v
  | .double d => return .long d.toInt64
  | .bool b => return .long (if b then 1 else 0)
  | .str s =>
    let marked := trimmed s.toList
    let text := (marked.reverse.dropWhile fun c => c = 'L' || c = 'l').reverse
    match int64? text with
    | some l => return .long l
    | none => throw (notValid v cs "Long" (String.ofList text))
  | _ => throw (cannotConvert cs v "Long")

/-- To a double: integers are rounded, a text is read. -/
def toDouble (cs : Classes) (v : Value) : Act Value :=
  match v with
  | .int i => return .double i.toFloat
  | .long l => return .double l.toFloat
  | .double _ => return v
  | .bool b => return .double (if b then 1 else 0)
  | .str s =>
    let text := trimmed s.toList
    match double? text with
    | some d => return .double d
    | none => throw (notValid v cs "Double" (String.ofList text))
  | _ => throw (cannotConvert cs v "Double")

/-- The truth value that a word stands for. -/
def boolOfWord? (word : String) : Option Bool :=
  if word ∈ ["true", "yes", "on", "1"] then some true
  else if word ∈ ["false", "no", "off", "0", ""] then some false
  else none

/-- To a truth value: numbers other than zero are true, and some words stand for one. -/
def toBool (cs : Classes) (v : Value) : Act Value :=
  match v with
  | .bool _ => return v
  | .int i => return .bool (i ≠ 0)
  | .long l => return .bool (l ≠ 0)
  | .double d => return .bool (d != 0)
  | .str s =>
    -- no word has a letter outside ASCII
    let word := String.ofList ((trimmed s.toList).map Char.toLower)
    match boolOfWord? word with
    | some b => return .bool b
    | none => throw (notValid v cs "Boolean" word)
  | _ => throw (cannotConvert cs v "Boolean")

/-- To a list: a new one with the items of an array. -/
def toList (cs : Classes) (v : Value) : Act Value :=
  match v with
  | .array h _ => do Act.newList (← Act.items h)
  | .list _ => return v
  | _ => throw (cannotConvert cs v "List")

/-- To an array: a new one, of any objects, with the items of a list. -/
def toArray (cs : Classes) (v : Value) : Act Value :=
  match v with
  | .list h => do Act.newArray .object (← Act.items h)
  | .array _ _ => return v
  | _ => throw (cannotConvert cs v "Array")

/-- The conversion to a built-in class, if there is one. -/
def Builtin.converter? (cs : Classes) : Builtin → Option Converter
  | string => some ⟨fun _ => true, fun v => .str <$> Act.textOf cs v⟩
  | integer => some ⟨isScalar, toInt cs⟩
  | long => some ⟨isScalar, toLong cs⟩
  | double => some ⟨isScalar, toDouble cs⟩
  | boolean => some ⟨isScalar, toBool cs⟩
  | list => some ⟨isSequence, toList cs⟩
  | array => some ⟨isSequence, toArray cs⟩
  | _ => none

namespace World

/-! ## Conversion to a class -/

/-- The conversion to a class: the host's if it has one, otherwise the built-in one. -/
def converter? (w : World) (target : ClassRef) : Option Converter :=
  match w.handlers.lookup target with
  | some h => some ⟨h.accepts, fun v => Act.liftHeap .conversion (h.convert v)⟩
  | none =>
    match target with
    | .builtin b => b.converter? w.classes
    | .host _ => none

/-- A value of one class can be made one of another. -/
def canConvert (w : World) (source target : ClassRef) : Bool :=
  w.classes.isSubclass source target ||
    match w.converter? target with
    | some c => c.accepts source
    | none => false

/-- A value of one type can be made to fit another, as far as their classes tell. -/
def canCoerce (w : World) (source target : Ty) : Bool :=
  w.classes.assignable target source || w.canConvert source.cls target.cls

/-- Run a conversion and record what came of it. -/
def runConverter (c : Converter) (target : ClassRef) (v : Value) : Act Value := fun s =>
  match c.run v s with
  | (.ok r, s) => (.ok r, { s with trace := .converted target v (.ok r) :: s.trace })
  | (.error (.conversion e), s) =>
    (.error (.conversion e), { s with trace := .converted target v (.error e) :: s.trace })
  | (.error e, s) => (.error e, s)

/-- Make a value one of a class. -/
def convert (w : World) (v : Value) (target : ClassRef) : Act Value :=
  if v.isNull || w.classes.isSubclass v.classRef target then return v
  else
    match w.converter? target with
    | some c =>
      if c.accepts v.classRef then runConverter c target v
      else throw (cannotConvert w.classes v (w.classes.name target))
    | none => throw (cannotConvert w.classes v (w.classes.name target))

/-! ## Conversion to a type -/

/-- Make a value fit a type. -/
def convertTo (w : World) : Ty → Value → Act Value
  | .mk (.builtin .array) (item :: rest), v => do
    let refit (items : List Value) : Act Value := do
      Act.newArray item (← items.mapM (convertTo w item))
    match v with
    -- an array is kept if its items are known to fit, and copied otherwise
    | .array h given => if w.classes.assignable item given then return v else refit (← Act.items h)
    | .list h => refit (← Act.items h)
    | .null => return v
    | _ => throw (cannotConvert w.classes v ((Ty.mk (.builtin .array) (item :: rest)).text w.classes))
  | t, v => if w.classes.satisfies v t then return v else w.convert v t.cls

/-- Make arguments fit parameters, one by one. -/
def bindArgs (w : World) (params : List Ty) (args : List Value) : Act (List Value) :=
  (args.zip params).mapM fun (arg, param) => w.convertTo param arg

/-- Whether a value counts as true in a condition; null does not. -/
def truth (w : World) (v : Value) : Act Bool := fun s =>
  match v with
  | .bool b => (.ok b, s)
  | .null => (.ok false, s)
  | v =>
    match w.convert v (.builtin .boolean) s with
    | (.ok (.bool b), s) => (.ok b, s)
    -- whatever the conversion failed with, the value is no condition
    | (_, s) => (.error (.nonBooleanCondition (v.typeName w.classes)), s)

end World

end HostExpr
