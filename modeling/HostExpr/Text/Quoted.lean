/-!
# Quoted texts

A text between double quotes, with a backslash before what would end or break it. The common control characters
have letters, the others are written by their numbers.
-/

namespace HostExpr

/-- A hexadecimal digit. -/
def hexDigit (n : Nat) : Char := if n < 10 then Char.ofNat (48 + n) else Char.ofNat (87 + n)

/-- A character as it stands between quotes. -/
def quotedChar (c : Char) : List Char :=
  match c with
  | '"' => ['\\', '"']
  | '\\' => ['\\', '\\']
  | '\n' => ['\\', 'n']
  | '\r' => ['\\', 'r']
  | '\t' => ['\\', 't']
  | '\x08' => ['\\', 'b']
  | '\x0c' => ['\\', 'f']
  | c =>
    if c.toNat < 32 then ['\\', 'u', '0', '0', hexDigit (c.toNat / 16), hexDigit (c.toNat % 16)] else [c]

/-- A text between quotes. -/
def withQuotes (s : String) : String := "\"" ++ String.ofList (s.toList.flatMap quotedChar) ++ "\""

end HostExpr
