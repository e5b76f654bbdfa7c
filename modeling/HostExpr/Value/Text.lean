import HostExpr.Number.Decimal
import HostExpr.Text.Inspected
import HostExpr.Type.Text
import HostExpr.Value.Heap

/-!
# The text of values

How values are displayed. The text of a container is made of those of its items, so the definitions carry a bound
on how deep containers may nest; one that lies within itself exceeds every bound and has no text.
-/

namespace HostExpr

/-- The text of a floating-point number. -/
def floatText (d : Float) : String := String.ofList (doubleText d)

/-- Items with brackets around them and commas between them. -/
def bracketed (items : List String) : String := "[" ++ ", ".intercalate items ++ "]"

namespace Heap

/-- The displayed form of a value whose containers nest at most `fuel` deep. -/
def textWithin (heap : Heap) (cs : Classes) : Nat → Value → Option String
  | _, .null => some "null"
  | _, .bool b => some (if b then "true" else "false")
  | _, .int i => some (intText i.toInt)
  | _, .long l => some (intText l.toInt)
  | _, .double d => some (floatText d)
  | _, .str s => some s
  | _, .object h c => some (cs.name c ++ "@" ++ String.ofList (Nat.toDigits 16 h))
  | _, .cls c => some ("class " ++ cs.qualifiedName c)
  | 0, _ => none
  | fuel + 1, .list h => bracketed <$> (heap.items h).mapM (textWithin heap cs fuel)
  | fuel + 1, .array h _ => bracketed <$> (heap.items h).mapM (textWithin heap cs fuel)
  | fuel + 1, .map h => do
    let entries ← (heap.entries h).mapM fun (k, v) => do
      let key ← textWithin heap cs fuel k
      let value ← textWithin heap cs fuel v
      return key ++ "=" ++ value
    return "\x7b" ++ ", ".intercalate entries ++ "\x7d"

/-- The displayed form of a value. Containers that do not lie within themselves nest no deeper than there are
cells. -/
def text? (heap : Heap) (cs : Classes) (v : Value) : Option String := heap.textWithin cs (heap.size + 1) v

end Heap

/-! ## Inspected values -/

/-- The form in which a value is shown when it is inspected: texts are quoted and longs are marked. -/
def Heap.inspected? (heap : Heap) (cs : Classes) : Value → Option String
  | .str s => some (inspectedText s)
  | .long l => some (intText l.toInt ++ "L")
  | v => heap.text? cs v

/-- The displayed form of a value in the store. -/
def Act.text (cs : Classes) (v : Value) : Act String := do
  match (← Act.heap).text? cs v with
  | some s => return s
  | none => throw .selfContaining

end HostExpr
