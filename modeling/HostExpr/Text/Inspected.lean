import HostExpr.Text.HiddenTable

/-!
# Inspected texts

A text as it is shown to one who looks for its exact characters: between double quotes, with a backslash before
what would end or break it, and with the code of every character that could not be seen.
-/

namespace HostExpr

/-- Whether a character cannot be seen on its own. -/
def isHidden (c : Char) : Bool := hiddenRanges.has c.toNat

/-- A character as it stands in an inspected text. -/
def inspectedChar : Char → List Char
  | '"' => ['\\', '"']
  | '\\' => ['\\', '\\']
  | '\n' => ['\\', 'n']
  | '\r' => ['\\', 'r']
  | '\t' => ['\\', 't']
  | '\x00' => ['\\', '0']
  | c => if isHidden c then ['\\', 'u', '{'] ++ Nat.toDigits 16 c.toNat ++ ['}'] else [c]

/-- A text between quotes, with nothing hidden. -/
def inspectedText (s : String) : String := "\"" ++ String.ofList (s.toList.flatMap inspectedChar) ++ "\""

end HostExpr
