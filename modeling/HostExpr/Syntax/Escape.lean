/-!
# Escapes in text literals

A backslash starts an escape: one of `n t r 0 \ ' "`, or `u` with the code of a character in hexadecimal. All
other characters stand for themselves.
-/

namespace HostExpr.Syntax

/-- Why the inside of a text literal denotes no text. -/
inductive EscapeError
  | unknown (c : Char)
  | noCharacter (code : List Char)
  | dangling
deriving DecidableEq, Repr

/-- The value of a hexadecimal digit. -/
def hexDigit? (c : Char) : Option Nat :=
  if c.isDigit then some (c.toNat - '0'.toNat)
  else if 'a' ≤ c ∧ c ≤ 'f' then some (c.toNat - 'a'.toNat + 10)
  else if 'A' ≤ c ∧ c ≤ 'F' then some (c.toNat - 'A'.toNat + 10)
  else none

/-- A number in hexadecimal; a plus sign may stand in front of it. -/
def hexadecimal? (cs : List Char) : Option Nat :=
  let digits :=
    match cs with
    | '+' :: ds => ds
    | ds => ds
  if digits.isEmpty then none
  else digits.foldlM (fun n c => (hexDigit? c).map (n * 16 + ·)) 0

/-- The character with a given code; surrogate codes have none. -/
def character? (code : Nat) : Option Char :=
  if h : code.isValidChar then some (Char.ofNatAux code h) else none

/-- The character that a one-letter escape stands for. -/
def escaped? : Char → Option Char
  | 'n' => some '\n'
  | 't' => some '\t'
  | 'r' => some '\r'
  | '0' => some '\x00'
  | '\\' => some '\\'
  | '\'' => some '\''
  | '"' => some '"'
  | _ => none

/-- The character that a code in hexadecimal names. -/
def coded (code : List Char) : Except EscapeError Char :=
  match (hexadecimal? code).bind character? with
  | some c => .ok c
  | none => .error (.noCharacter code)

/-- The text that the inside of a literal denotes. The code of a character is the next four characters, or
what is left of the literal if that is less. -/
def unescape : List Char → Except EscapeError (List Char)
  | [] => .ok []
  | c :: cs =>
    if c ≠ '\\' then (c :: ·) <$> unescape cs
    else
      match cs with
      | [] => .error .dangling
      | 'u' :: h₁ :: h₂ :: h₃ :: h₄ :: cs =>
        match coded [h₁, h₂, h₃, h₄] with
        | .ok c => (c :: ·) <$> unescape cs
        | .error e => .error e
      -- fewer than four characters are left: they are the code
      | 'u' :: code => (fun c => [c]) <$> coded code
      | e :: cs =>
        match escaped? e with
        | some c => (c :: ·) <$> unescape cs
        | none => .error (.unknown e)

end HostExpr.Syntax
