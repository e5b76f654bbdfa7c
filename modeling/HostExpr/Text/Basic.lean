/-!
# Operations on texts

Texts are sequences of characters: lengths and positions count characters, not bytes. Blanks are the characters
with the property White_Space.
-/

namespace HostExpr

/-- Whether a character is white space. -/
def isBlank (c : Char) : Bool :=
  let n := c.toNat
  (9 ≤ n && n ≤ 13) || n == 0x20 || n == 0x85 || n == 0xA0 || n == 0x1680 || (0x2000 ≤ n && n ≤ 0x200A)
    || n == 0x2028 || n == 0x2029 || n == 0x202F || n == 0x205F || n == 0x3000

/-- The characters without the blanks at their end. -/
def trimEnd (cs : List Char) : List Char := (cs.reverse.dropWhile isBlank).reverse

/-- The characters without the blanks at both ends. -/
def trimmed (cs : List Char) : List Char := trimEnd (cs.dropWhile isBlank)

/-- The position of the first place where `needle` stands. -/
def findFrom (needle : List Char) : Nat → List Char → Option Nat
  | i, [] => if needle.isEmpty then some i else none
  | i, c :: cs => if needle.isPrefixOf (c :: cs) then some i else findFrom needle (i + 1) cs

/-- The position of the first place where `needle` stands. -/
def find? (needle haystack : List Char) : Option Nat := findFrom needle 0 haystack

/-- Every occurrence of the text `c :: from` replaced, left to right; `skip` characters belong to an occurrence
that is already replaced. -/
def replaceFrom (c : Char) (needle new : List Char) : Nat → List Char → List Char
  | _, [] => []
  | skip + 1, _ :: cs => replaceFrom c needle new skip cs
  | 0, d :: cs =>
    if (c :: needle).isPrefixOf (d :: cs) then new ++ replaceFrom c needle new needle.length cs
    else d :: replaceFrom c needle new 0 cs

/-- Every occurrence of a text replaced. The empty text occurs in front of every character and at the end. -/
def replaceAll (needle new haystack : List Char) : List Char :=
  match needle with
  | [] => new ++ haystack.flatMap fun c => c :: new
  | c :: cs => replaceFrom c cs new 0 haystack

end HostExpr
