import HostExpr.Proofs.Typing.Parts
import HostExpr.Proofs.Typing.Steps
import HostExpr.Typing.Program

/-!
# Analysis does not look at numbers

Where an analysis starts to count call sites makes no difference but to the numbers of the call sites. A step that
starts to count later gives the same tree with all numbers shifted: `Shifts`. Beside that, the names in a typed tree are
names of the source: a name that an expression does not have is not in what is made of it.
-/

namespace HostExpr

/-! ## Names of the source -/

namespace Syntax.Expr

mutual

/-- The names in an expression that may stand for variables. -/
def names : Expr → List String
  | literal .. => []
  | ident _ name => [name]
  | field _ e _ | unary _ _ e | step _ _ e | cast _ _ e | newSized _ _ e => names e
  | methodCall _ e _ args => names e ++ namesAll args
  | index _ a b | assign _ a _ b | arith _ _ a b | logic _ _ a b | compare _ _ a b => names a ++ names b
  | conditional _ c a b => names c ++ names a ++ names b
  | call _ _ es | construct _ _ es | newArray _ _ es | inlineArray _ es | inlineList _ es => namesAll es
  | inlineMap _ entries => namesEntries entries

/-- The names in a row of expressions. -/
def namesAll : List Expr → List String
  | [] => []
  | e :: es => names e ++ namesAll es

/-- The names in the entries of a map. -/
def namesEntries : List (Expr × Expr) → List String
  | [] => []
  | (k, v) :: es => names k ++ names v ++ namesEntries es

end

end Syntax.Expr

/-! ## Typed trees -/

namespace Typed.Expr

mutual

/-- The expression with all its call sites numbered higher. -/
def shifted (k : Nat) : Expr → Expr
  | constant i v => constant i v
  | declared i name => declared i name
  | input i name site => input i name (site + k)
  | this i => this i
  | classRef i c => classRef i c
  | staticField i c field => staticField i c field
  | property i receiver name site => property i (shifted k receiver) name (site + k)
  | methodCall i receiver name args site => methodCall i (shifted k receiver) name (shiftedAll k args) (site + k)
  | functionCall i f args => functionCall i f (shiftedAll k args)
  | convert i v target => convert i (shifted k v) (shifted k target)
  | index i receiver position site => index i (shifted k receiver) (shifted k position) (site + k)
  | assign i target op v stored => assign i (shifted k target) op (shifted k v) stored
  | arith i op a b => arith i op (shifted k a) (shifted k b)
  | logic i op a b => logic i op (shifted k a) (shifted k b)
  | compare i op a b => compare i op (shifted k a) (shifted k b)
  | unary i op e => unary i op (shifted k e)
  | step i op e => step i op (shifted k e)
  | cast i t e => cast i t (shifted k e)
  | conditional i c a b => conditional i (shifted k c) (shifted k a) (shifted k b)
  | construct i c args chosen => construct i c (shiftedAll k args) chosen
  | newArray i t items => newArray i t (shiftedAll k items)
  | newSized i t e => newSized i t (shifted k e)
  | inlineList i items => inlineList i (shiftedAll k items)
  | inlineMap i entries => inlineMap i (shiftedEntries k entries)

/-- Expressions in a row with all their call sites numbered higher. -/
def shiftedAll (k : Nat) : List Expr → List Expr
  | [] => []
  | e :: es => shifted k e :: shiftedAll k es

/-- The entries of a map with all their call sites numbered higher. -/
def shiftedEntries (k : Nat) : List (Expr × Expr) → List (Expr × Expr)
  | [] => []
  | (a, b) :: es => (shifted k a, shifted k b) :: shiftedEntries k es

end

variable (k : Nat)

@[simp]
theorem info_shifted (e : Expr) : (e.shifted k).info = e.info := by
  cases e <;> rfl

@[simp]
theorem type_shifted (e : Expr) : (e.shifted k).type = e.type := congrArg Info.type (info_shifted k e)

@[simp]
theorem span_shifted (e : Expr) : (e.shifted k).span = e.span := congrArg Info.span (info_shifted k e)

@[simp]
theorem isAssignable_shifted (e : Expr) : (e.shifted k).isAssignable = e.isAssignable := by
  cases e <;> rfl

@[simp]
theorem classMeant?_shifted (e : Expr) : (e.shifted k).classMeant? = e.classMeant? := by
  cases e <;> rfl

@[simp]
theorem types_shiftedAll (es : List Expr) : (shiftedAll k es).map type = es.map type := by
  induction es with
  | nil => rfl
  | cons e es ih => rw [shiftedAll, List.map_cons, List.map_cons, ih, type_shifted]

@[simp]
theorem length_shiftedAll (es : List Expr) : (shiftedAll k es).length = es.length := by
  rw [← List.length_map type, types_shiftedAll, List.length_map]

@[simp]
theorem keyTypes_shiftedEntries (es : List (Expr × Expr)) :
    (shiftedEntries k es).map (·.1.type) = es.map (·.1.type) := by
  induction es with
  | nil => rfl
  | cons e es ih => rw [shiftedEntries, List.map_cons, List.map_cons, ih, type_shifted]

@[simp]
theorem valueTypes_shiftedEntries (es : List (Expr × Expr)) :
    (shiftedEntries k es).map (·.2.type) = es.map (·.2.type) := by
  induction es with
  | nil => rfl
  | cons e es ih => rw [shiftedEntries, List.map_cons, List.map_cons, ih, type_shifted]

/-! ### Call sites -/

/-- The call site and its member, numbered higher. -/
def shiftedAccess (access : Nat × Member) : Nat × Member := (access.1 + k, access.2)

mutual

theorem accesses_shifted : ∀ e : Expr, (e.shifted k).accesses = e.accesses.map (shiftedAccess k)
  | constant .. | declared .. | input .. | this _ | classRef .. | staticField .. => rfl
  | property _ e _ _ | unary _ _ e | step _ _ e | cast _ _ e | newSized _ _ e => by
    simp only [shifted, accesses, List.map_cons, accesses_shifted e, shiftedAccess]
  | methodCall _ e _ args _ => by
    simp only [shifted, accesses, List.map_cons, List.map_append, accesses_shifted e, accesses_shiftedAll args,
      length_shiftedAll, shiftedAccess]
  | index _ a b _ | convert _ a b | assign _ a _ b _ | arith _ _ a b | logic _ _ a b | compare _ _ a b => by
    simp only [shifted, accesses, List.map_cons, List.map_append, accesses_shifted a, accesses_shifted b,
      shiftedAccess]
  | conditional _ c a b => by
    simp only [shifted, accesses, List.map_append, accesses_shifted c, accesses_shifted a, accesses_shifted b]
  | functionCall _ _ args | construct _ _ args _ | newArray _ _ args | inlineList _ args => by
    simp only [shifted, accesses, accesses_shiftedAll args]
  | inlineMap _ entries => by
    simp only [shifted, accesses, accesses_shiftedEntries entries]

theorem accesses_shiftedAll : ∀ es : List Expr, accessesAll (shiftedAll k es) = (accessesAll es).map (shiftedAccess k)
  | [] => rfl
  | e :: es => by
    simp only [shiftedAll, accessesAll, List.map_append, accesses_shifted e, accesses_shiftedAll es]

theorem accesses_shiftedEntries : ∀ es : List (Expr × Expr),
    accessesEntries (shiftedEntries k es) = (accessesEntries es).map (shiftedAccess k)
  | [] => rfl
  | (a, b) :: es => by
    simp only [shiftedEntries, accessesEntries, List.map_append, accesses_shifted a, accesses_shifted b,
      accesses_shiftedEntries es]

end

/-! ### Names -/

/-- The name that a node reads or writes. -/
def named? : Expr → Option String
  | declared _ name | input _ name _ => some name
  | _ => none

/-- No part of the expression has the name. -/
def Lacks (p : String) (e : Expr) : Prop := ∀ n ∈ e.parts, n.named? ≠ some p

end Typed.Expr

end HostExpr
