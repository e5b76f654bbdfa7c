import HostExpr.Names.Table

/-!
# Nested scopes

Every open block has a frame with the names declared in it. A name means what it means in the innermost block
that declares it. `lookup_declare` and `lookup_assign?` say what names mean after a declaration and after an
assignment.
-/

namespace HostExpr

/-- The frames of the open blocks, the innermost first. -/
structure Scopes (α : Type) where
  frames : List (Table α)
deriving Repr, Inhabited

/-- Why a scope operation is impossible. -/
inductive ScopeError
  | emptyStack
  | noScope
deriving DecidableEq, Repr

/-- The message of an impossible scope operation. -/
def ScopeError.message : ScopeError → String
  | emptyStack => "Cannot pop from empty scope stack"
  | noScope => "No scope to bind in"

namespace Scopes

variable {α : Type}

/-- No block is open. -/
def empty : Scopes α := ⟨[]⟩

def isEmpty (s : Scopes α) : Bool := s.frames.isEmpty

/-- How many blocks are open. -/
def depth (s : Scopes α) : Nat := s.frames.length

/-- Open a block. -/
def push (s : Scopes α) : Scopes α := ⟨[] :: s.frames⟩

/-- Close the innermost block; gives the names declared in it. -/
def pop (s : Scopes α) : Except ScopeError (Table α × Scopes α) :=
  match s.frames with
  | [] => .error .emptyStack
  | frame :: rest => .ok (frame, ⟨rest⟩)

/-- Close the innermost block, if there is one. -/
def popped (s : Scopes α) : Scopes α := ⟨s.frames.tail⟩

/-- What a name means. -/
def lookup (s : Scopes α) (name : String) : Option α := s.frames.findSome? (Table.get? · name)

/-- Declare a name in the innermost block. -/
def declare (s : Scopes α) (name : String) (a : α) : Except ScopeError (Scopes α) :=
  match s.frames with
  | [] => .error .noScope
  | frame :: rest => .ok ⟨frame.put name a :: rest⟩

/-- The frames with a new meaning for a name where it is declared, or nothing if it is not. -/
def assignIn (name : String) (a : α) : List (Table α) → Option (List (Table α))
  | [] => none
  | frame :: rest =>
    if frame.has name then some (frame.put name a :: rest)
    else (assignIn name a rest).map (frame :: ·)

/-- Give a declared name a new meaning. -/
def assign? (s : Scopes α) (name : String) (a : α) : Option (Scopes α) :=
  (assignIn name a s.frames).map Scopes.mk

/-! ## Laws -/

/-- Closing a block that was just opened leaves all as it was. -/
@[simp]
theorem pop_push (s : Scopes α) : s.push.pop = .ok ([], s) := rfl

/-- A new block gives no name a meaning. -/
@[simp]
theorem lookup_push (s : Scopes α) (name : String) : s.push.lookup name = s.lookup name := rfl

/-- What names mean after a declaration. -/
theorem lookup_declare {s s' : Scopes α} {name : String} {a : α} (h : s.declare name a = .ok s')
    (other : String) : s'.lookup other = if other = name then some a else s.lookup other := by
  match s, h with
  | ⟨frame :: rest⟩, h =>
    cases h
    simp only [lookup, List.findSome?_cons, Table.get?_put]
    by_cases h' : other = name <;> simp [h']

/-- A name can be given a new meaning exactly if it has one. -/
theorem isSome_assignIn (name : String) (a : α) (frames : List (Table α)) :
    (assignIn name a frames).isSome = (frames.findSome? (Table.get? · name)).isSome := by
  induction frames with
  | nil => rfl
  | cons frame rest ih =>
    cases h : frame.get? name <;> simp [assignIn, Table.has, h, ih]

/-- What names mean after one is given a new meaning. -/
theorem findSome?_assignIn {name : String} {a : α} {frames frames' : List (Table α)}
    (h : assignIn name a frames = some frames') (other : String) :
    frames'.findSome? (Table.get? · other)
      = if other = name then some a else frames.findSome? (Table.get? · other) := by
  induction frames generalizing frames' with
  | nil => simp [assignIn] at h
  | cons frame rest ih =>
    simp only [assignIn, Table.has] at h
    cases hf : frame.get? name with
    | some b =>
      simp only [hf, Option.isSome_some, if_true, Option.some.injEq] at h
      subst h
      simp only [List.findSome?_cons, Table.get?_put]
      by_cases h' : other = name <;> simp [h']
    | none =>
      simp only [hf, Option.isSome_none, Bool.false_eq_true, if_false, Option.map_eq_some_iff] at h
      obtain ⟨rest', hr, rfl⟩ := h
      simp only [List.findSome?_cons, ih hr]
      by_cases h' : other = name
      · subst h'; simp [hf]
      · simp [h']

/-- A name can be given a new meaning exactly if it has one. -/
theorem isSome_assign? (s : Scopes α) (name : String) (a : α) :
    (s.assign? name a).isSome = (s.lookup name).isSome := by
  simp [assign?, lookup, isSome_assignIn]

/-- What names mean after one is given a new meaning. -/
theorem lookup_assign? {s s' : Scopes α} {name : String} {a : α} (h : s.assign? name a = some s')
    (other : String) : s'.lookup other = if other = name then some a else s.lookup other := by
  obtain ⟨frames, hf, rfl⟩ := Option.map_eq_some_iff.1 h
  exact findSome?_assignIn hf other

end Scopes

end HostExpr
