import HostExpr.Class.Lookup

/-!
# The text of types

How types are displayed: `List<String>`, `Integer[]`.
-/

namespace HostExpr

namespace Ty

mutual

/-- The displayed form of a type. -/
def text (cs : Classes) : Ty → String
  | mk (.builtin .array) [] => "Object[]"
  | mk (.builtin .array) (item :: _) => item.text cs ++ "[]"
  | mk c [] => cs.name c
  | mk c as => cs.name c ++ "<" ++ textAll cs as ++ ">"

/-- Types in a row, with commas between them. -/
def textAll (cs : Classes) : List Ty → String
  | [] => ""
  | [t] => t.text cs
  | t :: ts => t.text cs ++ ", " ++ textAll cs ts

end

end Ty

namespace TypeRef

mutual

/-- The written form of a signature type. -/
def text (cs : Classes) : TypeRef → String
  | self => "Self"
  | var name => name
  | cls c [] => cs.name c
  | cls c as => cs.name c ++ "<[" ++ textAll cs as ++ "]>"

/-- Signature types in a row, with commas between them. -/
def textAll (cs : Classes) : List TypeRef → String
  | [] => ""
  | [t] => t.text cs
  | t :: ts => t.text cs ++ ", " ++ textAll cs ts

end

end TypeRef

/-- What a value is called in messages: its class, or for an array its type. -/
def Value.typeName (cs : Classes) : Value → String
  | array _ item => item.text cs ++ "[]"
  | v => cs.name v.classRef

end HostExpr
