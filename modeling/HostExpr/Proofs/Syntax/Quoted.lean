import HostExpr.Proofs.Syntax.Escapes
import HostExpr.Proofs.Syntax.Literals

/-!
# Text literals

Every text can be written between quotes of either kind: with a backslash in front of each backslash and of each quote
of this kind, and all other characters as they are. The token ends at the quote that was put there, and reading its
escapes gives the text back.
-/

namespace HostExpr

open Pattern

/-- The quotes that a text can stand between. -/
inductive Quote
  | single
  | double

def Quote.char : Quote → Char
  | single => '\''
  | double => '"'

/-- The source of a text literal. -/
def Quote.literal (q : Quote) (s : String) : String := String.ofList (quotedText q.char s.toList)

/-- Writing a text between quotes makes it no shorter. -/
theorem length_le_quotedText (quote : Char) (xs : List Char) : xs.length ≤ (quotedText quote xs).length := by
  have inside : xs.length ≤ (xs.flatMap (escapedChar quote)).length := by
    induction xs with
    | nil => exact Nat.le_refl 0
    | cons x xs ih =>
      rw [List.flatMap_cons, List.length_append, List.length_cons, escapedChar]
      split <;> (simp only [List.length_cons, List.length_nil]; omega)
  simp only [quotedText, List.length_cons, List.length_append]
  omega

/-- The token of a text literal is all of it. -/
theorem passes_string (q : Quote) {fuel : Nat} {xs : List Char} (enough : xs.length ≤ fuel) (s : List Char) :
    Rule.string.pattern.Passes fuel (quotedText q.char xs) s := by
  cases q with
  | single => exact .alt_left (passes_quoted (by decide) enough s)
  | double => exact .alt_right (stops_at ['"'] (by decide +kernel) _) (passes_quoted (by decide) enough s)

/-- No other literal starts with a quote. -/
theorem matches_literal (q : Quote) {fuel : Nat} {xs : List Char} (enough : xs.length ≤ fuel) (o : Nat) :
    literal.Matches (fuel + 1) .building ⟨quotedText q.char xs, o⟩ (.behind o (quotedText q.char xs) [])
      [.mk .string ⟨quotedText q.char xs, o⟩ (.behind o (quotedText q.char xs) []) []] := by
  have token := passes_string q enough [] o
  rw [List.append_nil] at token
  refine matches_first [.rule .double, .rule .long, .rule .integer] _ ?_ (matches_token rfl rfl token)
  have refused : ∀ p ∈ [rule .double, .rule .long, .rule .integer], p.refused [q.char] false := by
    cases q <;> decide +kernel
  exact fun p hp => fails_at [q.char] (refused p hp) _ o

namespace Syntax

/-- Reading the escapes takes the backslashes away that writing has put there. -/
theorem unescape_escapedChar (q : Quote) (xs : List Char) : unescape (xs.flatMap (escapedChar q.char)) = .ok xs := by
  induction xs with
  | nil => rfl
  | cons x xs ih =>
    rw [List.flatMap_cons, escapedChar]
    split
    · rename_i written
      have same : escaped? x = some x := by
        rcases written with rfl | rfl
        · rfl
        · cases q <;> rfl
      rw [List.cons_append, List.singleton_append, unescape_escaped same, ih]
      rfl
    · rename_i plain
      rw [List.singleton_append, unescape_cons fun h => plain (.inl h), ih]
      rfl

/-- The value of a quoted text is the text. -/
theorem literalOf_quoted (q : Quote) (xs : List Char) (o : Nat) :
    literalOf (.mk .string ⟨quotedText q.char xs, o⟩ (.behind o (quotedText q.char xs) []) [])
      = .ok (.str (String.ofList xs)) := by
  have inside : (quotedText q.char xs).tail.dropLast = xs.flatMap (escapedChar q.char) := List.dropLast_concat
  simp only [literalOf, Node.rule, Node.text, Cursor.textTo_all, inside, unescape_escapedChar]

/-- A text literal is the program of one statement, and its value is the text. -/
theorem parse_literal (q : Quote) (s : String) :
    parse (q.literal s) = .ok [.expr (.literal ⟨0, byteLength (q.literal s).toList⟩ (.str s))] := by
  have source : (q.literal s).toList = quotedText q.char s.toList := String.toList_ofList
  have starts : startsLiteral q.char := by cases q <;> rfl
  have enough : s.toList.length ≤ 16 * (quotedText q.char s.toList).length + 27 := by
    have short := length_le_quotedText q.char s.toList
    omega
  have token := matches_literal q enough 0
  have denotes := literalOf_quoted q s.toList 0
  rw [String.ofList_toList] at denotes
  rw [← source] at token denotes
  have kind : Rule.string ∈ literalRules := by decide
  have whole := parse_of_literal source starts rfl token kind denotes
  rw [whole]
  simp [Node.span, Cursor.behind]

end Syntax

end HostExpr
