import HostExpr.Names.Scope
import Mathlib.Data.Finmap

/-!
# Scopes are nested finite maps

A stack of scopes is specified by a stack of finite maps, one for each open block: a name is looked up, and is given a
new meaning, in the innermost map that has it; a declaration goes to the innermost map, whether it has the name or not;
and closing a block gives the names of its map in the order in which they were first declared. `replies_eq` says that no
row of requests, from no open block on, tells a stack of scopes from its specification.

What is carried along is `Models`, frame by frame: the pairs of a frame spell the map of its block, in the order of the
declarations, and no name stands in two of them. So it does not matter from which end a frame is searched.
-/

namespace HostExpr

/-- Where no name stands in two pairs, a search from the end finds what a search from the front does. -/
theorem Table.get?_reverse {α : Type} {t : Table α} (nodup : t.names.Nodup) (name : String) :
    Table.get? t.reverse name = t.get? name := by
  induction t with
  | nil => rfl
  | cons entry rest ih =>
    obtain ⟨n, b⟩ := entry
    obtain ⟨fresh, nodup⟩ := List.nodup_cons.1 nodup
    have split : Table.get? (rest.reverse ++ [(n, b)]) name = (Table.get? rest name).or (Table.get? [(n, b)] name) := by
      rw [← ih nodup]
      exact List.lookup_append
    rw [List.reverse_cons, split, Table.get?_cons, Table.get?_cons]
    -- the first pair of a name is also its last, as no other pair has it
    by_cases same : name = n
    · have absent : Table.get? rest n = none := by
        cases found : Table.get? rest n with
        | none => rfl
        | some a => exact absurd (List.mem_map_of_mem (Table.mem_of_get? found)) fresh
      simp [same, absent]
    · simp [same, Table.get?]

namespace Scopes

variable {α : Type}

/-! ## Requests and replies -/

/-- What a stack of scopes can be asked. -/
inductive Request (α : Type)
  | push
  | pop
  | declare (name : String) (a : α)
  | assign (name : String) (a : α)
  | lookup (name : String)

/-- What comes back: for a block that is closed its names and what they mean in it, for a name its meaning if it has
one, for a value that no block takes the value, and for what is impossible the reason. -/
inductive Reply (α : Type)
  | done
  | closed (names : List String) (meaning : String → Option α)
  | found (meaning : Option α)
  | handedBack (a : α)
  | refused (e : ScopeError)

/-- The reply to a request, and the scopes afterwards. -/
def answer (s : Scopes α) : Request α → Reply α × Scopes α
  | .push => (.done, s.push)
  | .pop =>
    match s.pop with
    | .ok (frame, rest) => (.closed frame.names frame.get?, rest)
    | .error e => (.refused e, s)
  | .declare name a =>
    match s.declare name a with
    | .ok s' => (.done, s')
    | .error e => (.refused e, s)
  | .assign name a =>
    match s.assign? name a with
    | some s' => (.done, s')
    | none => (.handedBack a, s)
  | .lookup name => (.found (s.lookup name), s)

/-- The replies to a row of requests, each asked of the state that the one before leaves, and the last state. -/
def replies {σ : Type} (answer : σ → Request α → Reply α × σ) (s : σ) : List (Request α) → List (Reply α) × σ
  | [] => ([], s)
  | request :: requests =>
    let now := answer s request
    let later := replies answer now.2 requests
    (now.1 :: later.1, later.2)

/-! ## Blocks as finite maps -/

/-- An open block: what its names mean, and the names that were declared in it, the oldest declaration first. A name
has a meaning just if it was declared. -/
structure Block (α : Type) where
  meanings : Finmap fun _ : String => α
  declared : List String
  mem_iff : ∀ name, name ∈ meanings ↔ name ∈ declared

namespace Block

/-- A block that was just opened. -/
def opened : Block α := ⟨∅, [], fun _ => iff_of_false Finmap.notMem_empty List.not_mem_nil⟩

/-- The names in the order of their first declarations. -/
def names (b : Block α) : List String := b.declared.eraseDups

/-- Whether a name has a meaning in the block. -/
def has (b : Block α) (name : String) : Bool := name ∈ b.meanings

/-- A declaration, of a new name or of one that is there. -/
def declare (b : Block α) (name : String) (a : α) : Block α where
  meanings := b.meanings.insert name a
  declared := b.declared ++ [name]
  mem_iff other := by rw [Finmap.mem_insert, b.mem_iff, List.mem_append, List.mem_singleton, or_comm]

/-- A new meaning for a name that is there; another has no place here. -/
def assign (b : Block α) (name : String) (a : α) : Block α :=
  if given : name ∈ b.meanings then
    { meanings := b.meanings.insert name a
      declared := b.declared
      mem_iff := fun other => by
        rw [Finmap.mem_insert, b.mem_iff, or_iff_right_of_imp]
        rintro rfl
        exact (b.mem_iff _).1 given }
  else b

/-- The reply to a request, as it is specified, and the blocks afterwards, the innermost first. -/
def answer (blocks : List (Block α)) : Request α → Reply α × List (Block α)
  | .push => (.done, opened :: blocks)
  | .pop =>
    match blocks with
    | [] => (.refused .emptyStack, [])
    | b :: outer => (.closed b.names b.meanings.lookup, outer)
  | .declare name a =>
    match blocks with
    | [] => (.refused .noScope, [])
    | b :: outer => (.done, b.declare name a :: outer)
  | .assign name a =>
    match blocks.findIdx? (·.has name) with
    | some innermost => (.done, blocks.modify innermost (·.assign name a))
    | none => (.handedBack a, blocks)
  | .lookup name => (.found ((blocks.find? (·.has name)).bind (·.meanings.lookup name)), blocks)

/-- A name that is declared again keeps its place, and a new one comes last. -/
theorem names_declare (b : Block α) (name : String) (a : α) :
    (b.declare name a).names = if name ∈ b.names then b.names else b.names ++ [name] := by
  show (b.declared ++ [name]).eraseDups = _
  rw [List.eraseDups_append]
  unfold names
  by_cases again : name ∈ b.declared
  · simp [List.removeAll, again]
  · simp [List.removeAll, again, List.eraseDups_cons]

end Block

/-! ## Frames model blocks -/

/-- A frame holds the pairs of a block: one for each name, in the order of the first declarations. -/
structure Models (t : Table α) (b : Block α) : Prop where
  nodup : t.names.Nodup
  names : t.names = b.names
  means : ∀ name, t.get? name = b.meanings.lookup name

namespace Models

variable {t : Table α} {b : Block α}

/-- Frame and block have the same names. -/
theorem has (models : Models t b) (name : String) : t.has name = b.has name := by
  unfold Table.has Block.has
  rw [models.means, Bool.eq_iff_iff, Finmap.lookup_isSome, decide_eq_true_iff]

/-- A name stands in the frame just if the block has it. -/
theorem mem_names (models : Models t b) (name : String) : name ∈ t.names ↔ b.has name := by
  unfold Block.has
  rw [models.names, decide_eq_true_iff, b.mem_iff, Block.names, List.mem_eraseDups]

/-- A name that is put means what is put, and the others what they did. -/
theorem means_put (models : Models t b) (name : String) (a : α) (other : String) :
    (t.put name a).get? other = (b.meanings.insert name a).lookup other := by
  rw [Table.get?_put]
  by_cases same : other = name
  · rw [if_pos same, same, Finmap.lookup_insert]
  · rw [if_neg same, Finmap.lookup_insert_of_ne _ same, models.means]

/-- A new block has no names. -/
theorem opened : Models [] (Block.opened : Block α) := by
  refine ⟨.nil, rfl, fun name => ?_⟩
  show none = (∅ : Finmap fun _ : String => α).lookup name
  rw [Finmap.lookup_empty]

/-- A declaration puts its name into the frame. -/
theorem declare (models : Models t b) (name : String) (a : α) : Models (t.put name a) (b.declare name a) := by
  refine ⟨?_, ?_, models.means_put name a⟩
  · rw [Table.names_put]
    split
    · exact models.nodup
    · rename_i fresh
      exact List.concat_eq_append ▸ models.nodup.concat fresh
  · rw [Table.names_put, models.names, Block.names_declare]

/-- So does a new meaning, and then the name is there already. -/
theorem assign (models : Models t b) {name : String} (given : b.has name) (a : α) :
    Models (t.put name a) (b.assign name a) := by
  have kept : (t.put name a).names = t.names := by
    rw [Table.names_put, if_pos ((models.mem_names name).2 given)]
  unfold Block.assign
  rw [dif_pos (of_decide_eq_true given)]
  exact ⟨kept ▸ models.nodup, kept.trans models.names, models.means_put name a⟩

end Models

section

variable {frames : List (Table α)} {blocks : List (Block α)}

/-- A name means what it means in the innermost block that has it. -/
theorem findSome?_eq (models : List.Forall₂ Models frames blocks) (name : String) :
    frames.findSome? (Table.get? · name) = (blocks.find? (·.has name)).bind (·.meanings.lookup name) := by
  induction models with
  | nil => rfl
  | @cons t b _ _ one _ ih =>
    have has : (t.get? name).isSome = b.has name := one.has name
    rw [List.findSome?_cons, List.find?_cons, ← has]
    cases found : t.get? name with
    | some a => exact found.symm.trans (one.means name)
    -- the name is not here, so the search goes on in the outer blocks
    | none => exact ih

/-- A new meaning goes to the innermost block that has the name. -/
theorem assignIn_eq (models : List.Forall₂ Models frames blocks) (name : String) (a : α) :
    match blocks.findIdx? (·.has name) with
    | some innermost => ∃ frames', assignIn name a frames = some frames'
        ∧ List.Forall₂ Models frames' (blocks.modify innermost (·.assign name a))
    | none => assignIn name a frames = none := by
  induction models with
  | nil => rfl
  | @cons t b ts bs one rest ih =>
    rw [List.findIdx?_cons]
    unfold assignIn
    rw [one.has]
    -- frame and block have the same names, so both searches end here or go on
    by_cases given : b.has name
    · rw [if_pos given, if_pos given]
      exact ⟨_, rfl, .cons (one.assign given a) rest⟩
    · rw [if_neg given, if_neg given]
      cases found : bs.findIdx? (·.has name) with
      | none =>
        rw [found] at ih
        exact congrArg (Option.map (t :: ·)) ih
      | some i =>
        rw [found] at ih
        obtain ⟨ts', assigned, others⟩ := ih
        exact ⟨t :: ts', congrArg (Option.map (t :: ·)) assigned, .cons one others⟩

end

/-! ## Runs -/

/-- One request has the specified reply, and the frames model the blocks again. -/
theorem answer_eq {s : Scopes α} {blocks : List (Block α)} (models : List.Forall₂ Models s.frames blocks)
    (request : Request α) : (s.answer request).1 = (Block.answer blocks request).1
      ∧ List.Forall₂ Models (s.answer request).2.frames (Block.answer blocks request).2 := by
  obtain ⟨frames⟩ := s
  cases request with
  | push => exact ⟨rfl, .cons .opened models⟩
  | pop =>
    cases models with
    | nil => exact ⟨rfl, .nil⟩
    | @cons t b _ _ one rest =>
      -- a block that is closed is answered with its names in order and the meaning of each
      have names : t.names = b.names := one.names
      have meaning : t.get? = b.meanings.lookup := funext one.means
      exact ⟨congrArg₂ Reply.closed names meaning, rest⟩
  | declare name a =>
    cases models with
    | nil => exact ⟨rfl, .nil⟩
    | cons one rest => exact ⟨rfl, .cons (one.declare name a) rest⟩
  | assign name a =>
    have placed := assignIn_eq models name a
    unfold answer Block.answer assign?
    dsimp only
    cases found : blocks.findIdx? (·.has name) with
    | none =>
      rw [found] at placed
      rw [placed]
      exact ⟨rfl, models⟩
    | some i =>
      rw [found] at placed
      obtain ⟨frames', assigned, others⟩ := placed
      rw [assigned]
      exact ⟨rfl, others⟩
  | lookup name => exact ⟨congrArg Reply.found (findSome?_eq models name), models⟩

/-- So do all requests of a row. -/
theorem replies_of_models {s : Scopes α} {blocks : List (Block α)} (models : List.Forall₂ Models s.frames blocks)
    (requests : List (Request α)) : (replies answer s requests).1 = (replies Block.answer blocks requests).1
      ∧ List.Forall₂ Models (replies answer s requests).2.frames (replies Block.answer blocks requests).2 := by
  -- by induction on the row, from any state that models its specification: that is what each request keeps
  induction requests generalizing s blocks with
  | nil => exact ⟨rfl, models⟩
  | cons request requests ih =>
    obtain ⟨now, next⟩ := answer_eq models request
    obtain ⟨later, last⟩ := ih next
    exact ⟨congrArg₂ List.cons now later, last⟩

/-- A stack of scopes implements nested finite maps: from no open block on, any row of requests is replied to as it is
specified, and in the end every frame models the block that is specified at its place. Each frame gives the same when it
is searched from its end. -/
theorem replies_eq (requests : List (Request α)) :
    let reached := replies answer empty requests
    let specified := replies Block.answer [] requests
    reached.1 = specified.1 ∧ List.Forall₂ Models reached.2.frames specified.2
      ∧ ∀ frame ∈ reached.2.frames, ∀ name, Table.get? frame.reverse name = frame.get? name := by
  intro reached specified
  obtain ⟨same, models⟩ := replies_of_models (s := (empty : Scopes α)) .nil requests
  have nodup : ∀ frame ∈ reached.2.frames, frame.names.Nodup := by
    intro frame mem
    obtain ⟨i, rfl⟩ := List.mem_iff_get.1 mem
    have level : i < specified.2.length := models.length_eq ▸ i.isLt
    exact (models.get i.isLt level).nodup
  exact ⟨same, models, fun frame mem => Table.get?_reverse (nodup frame mem)⟩

/-- An inner block hides an outer name and takes what is assigned to it; once it is closed, the name means what it
did. -/
example :
    (replies answer empty [.push, .declare "a" 1, .push, .declare "b" 3, .declare "a" 10, .declare "b" 4,
      .assign "a" 11, .pop, .lookup "a", .assign "c" 7, .pop, .pop]).1
    = [.done, .done, .done, .done, .done, .done, .done, .closed ["b", "a"] (Table.get? [("b", 4), ("a", 11)]),
      .found (some 1), .handedBack 7, .closed ["a"] (Table.get? [("a", 1)]), .refused .emptyStack] := rfl

end Scopes

end HostExpr
