/-!
# Spans of source text

A span is a half-open range of UTF-8 byte offsets into the source, `[start, stop)`.
-/

namespace HostExpr

/-- A half-open range of byte offsets. -/
structure Span where
  start : Nat
  stop : Nat
deriving DecidableEq, Repr, Inhabited

namespace Span

/-- The empty range at an offset. -/
def point (offset : Nat) : Span := ⟨offset, offset⟩

/-- From the start of one span to the end of another. -/
def join (a b : Span) : Span := ⟨a.start, b.stop⟩

/-- One span lies inside another. -/
def Within (inner outer : Span) : Prop := outer.start ≤ inner.start ∧ inner.stop ≤ outer.stop

instance (a b : Span) : Decidable (a.Within b) := inferInstanceAs (Decidable (_ ∧ _))

end Span

/-- Number of bytes a text takes in UTF-8. -/
def byteLength : List Char → Nat
  | [] => 0
  | c :: cs => c.utf8Size + byteLength cs

/-- The longest start of a text that ends at or just past `n` bytes: a character is taken as long as
bytes are still wanted. -/
def takeBytes : Nat → List Char → List Char
  | _, [] => []
  | n, c :: cs => if n = 0 then [] else c :: takeBytes (n - c.utf8Size) cs

end HostExpr
