import HostExpr.Type.Basic
import HostExpr.Text.Basic

/-!
# Reading signature types

The host writes the types of members as text: `List<$E>`, `Integer[]`, `Self`. A `$` marks a type variable;
blanks do not count.
-/

namespace HostExpr

/-- Characters that can stand in the name of a class. -/
def isTypeNameChar (c : Char) : Bool := !(c = '<' || c = '>' || c = ',' || c = '[' || c = ']')

namespace TypeRef

/-- Arrays of a type, one dimension for each pair of brackets in front of the text. -/
def readDims (type : TypeRef) : List Char → TypeRef × List Char
  | '[' :: ']' :: rest => readDims (cls (.builtin .array) [type]) rest
  | rest => (type, rest)

mutual

/-- The type that a text starts with, and the rest of the text. -/
def readFrom (names : String → Option ClassRef) : Nat → List Char → Option (TypeRef × List Char)
  | 0, _ => none
  | fuel + 1, text => do
    let name := String.ofList (text.takeWhile isTypeNameChar)
    let rest := text.dropWhile isTypeNameChar
    if name = "Self" then return readDims self rest
    if name.startsWith "$" then return readDims (var (String.ofList (name.toList.drop 1))) rest
    let c ← names name
    match rest with
    | '<' :: rest => do
      let (args, rest) ← readArgs names fuel rest
      return readDims (cls c args) rest
    | rest => return readDims (raw c) rest

/-- Type arguments up to the closing bracket. -/
def readArgs (names : String → Option ClassRef) : Nat → List Char → Option (List TypeRef × List Char)
  | 0, _ => none
  | fuel + 1, text => do
    let (type, rest) ← readFrom names fuel text
    match rest with
    | ',' :: rest => do
      let (types, rest) ← readArgs names fuel rest
      return (type :: types, rest)
    | '>' :: rest => return ([type], rest)
    | _ => none

end

/-- The type that a text spells. -/
def read? (names : String → Option ClassRef) (text : String) : Option TypeRef :=
  let text := text.toList.filter (· ≠ ' ')
  match readFrom names (2 * text.length + 1) text with
  | some (type, []) => some type
  | _ => none

end TypeRef

/-- The type that a text spells outside of any class. -/
def Ty.read? (names : String → Option ClassRef) (text : String) : Option Ty :=
  (TypeRef.read? names text).map (·.resolve [] .object)

end HostExpr
