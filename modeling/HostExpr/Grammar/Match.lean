import HostExpr.Grammar.Rules
import HostExpr.Syntax.Span

/-!
# Matching text against the grammar

Matching walks over a `Cursor` and builds the nodes of the rules that matched. Beside the nodes it keeps
the `Attempts`: the rules that failed furthest to the right, which is what a syntax error reports.

Outside tokens, blanks and comments are skipped between two patterns of a sequence and between two rounds of
a repetition. They are skipped also in front of an optional pattern that then matches nothing, so a node may
end behind the blanks that follow it.
-/

namespace HostExpr

/-- A place in the source: the text that is left, and how many bytes lie before it. -/
structure Cursor where
  rest : List Char
  offset : Nat
deriving DecidableEq, Repr, Inhabited

namespace Cursor

/-- The start of a source. -/
def ofList (source : List Char) : Cursor := ⟨source, 0⟩

/-- Past one character of the class. -/
def one? (cls : CharClass) (c : Cursor) : Option Cursor :=
  match c.rest with
  | [] => none
  | x :: xs => if cls.has x then some ⟨xs, c.offset + x.utf8Size⟩ else none

/-- Past the given characters. -/
def text? : List Char → Cursor → Option Cursor
  | [], c => some c
  | x :: xs, c =>
    match c.rest with
    | [] => none
    | y :: ys => if x = y then text? xs ⟨ys, c.offset + y.utf8Size⟩ else none

/-- The characters from one place up to a later one. -/
def textTo (c d : Cursor) : List Char := takeBytes (d.offset - c.offset) c.rest

end Cursor

/-- A matched rule: where it starts, where it ends, and the rules matched inside. -/
inductive Node
  | mk (rule : Rule) (start stop : Cursor) (children : List Node)

namespace Node

def rule : Node → Rule
  | mk r _ _ _ => r

def children : Node → List Node
  | mk _ _ _ ns => ns

def span : Node → Span
  | mk _ a b _ => ⟨a.offset, b.offset⟩

/-- The source text of the node. -/
def text : Node → List Char
  | mk _ a b _ => a.textTo b

end Node

/-- The rules that failed at the rightmost place where any rule failed, in the order they were tried. -/
structure Attempts where
  offset : Nat
  rules : List Rule
deriving DecidableEq, Repr, Inhabited

namespace Attempts

/-- Before anything was tried. -/
def start : Attempts := ⟨0, []⟩

/-- How many attempts are kept for an offset. -/
def countAt (log : Attempts) (offset : Nat) : Nat :=
  if log.offset = offset then log.rules.length else 0

/-- Record that `r` failed at `offset`, where `before` attempts were kept when it was tried. If exactly one
attempt was added at that place meanwhile, that attempt says more than `r` and is kept; otherwise `r` stands
for all that was tried inside it. -/
def record (log : Attempts) (offset before : Nat) (r : Rule) : Attempts :=
  -- a single attempt inside the rule is the more precise answer
  if log.countAt offset = before + 1 then log
  -- something has come further than this place
  else if offset < log.offset then log
  else if offset = log.offset then ⟨offset, log.rules.take before ++ [r]⟩
  else ⟨offset, [r]⟩

end Attempts

/-- What a match builds. -/
inductive Mode
  /-- Nodes are built and attempts recorded. -/
  | building
  /-- Inside a look-ahead: attempts are recorded, but nothing is built. -/
  | looking
  /-- Inside a token: no blanks are skipped, nothing is built and nothing recorded. -/
  | token
deriving DecidableEq, Repr

/-- The mode of a look-ahead. -/
def Mode.look : Mode → Mode
  | .building => .looking
  | m => m

/-- A match from a place on: the place behind it and the nodes built, or a failure; and the attempts. -/
abbrev Matcher := Cursor → Attempts → Option (Cursor × List Node) × Attempts

namespace Matcher

/-- A match that builds nothing and moves as `f` says. -/
def move (f : Cursor → Option Cursor) : Matcher := fun c log =>
  ((f c).map (·, []), log)

/-- One after the other, with `skip` between them. -/
def seq (skip : Cursor → Cursor) (p q : Matcher) : Matcher := fun c log =>
  match p c log with
  | (none, log) => (none, log)
  | (some (c, ns), log) =>
    -- blanks are skipped even if `q` then matches nothing, so that a node may end in blanks
    match q (skip c) log with
    | (none, log) => (none, log)
    | (some (c, ms), log) => (some (c, ns ++ ms), log)

/-- The first of the two that matches. -/
def alt (p q : Matcher) : Matcher := fun c log =>
  match p c log with
  | (none, log) => q c log
  | found => found

/-- The rounds of a repetition that follow its first, at most `fuel` of them. The skip in front of a round
that fails is taken back. -/
def rounds (skip : Cursor → Cursor) (p : Matcher) : Nat → Matcher
  | 0, c, log => (some (c, []), log)
  | fuel + 1, c, log =>
    match p (skip c) log with
    | (none, log) => (some (c, []), log)
    | (some (d, ns), log) =>
      match rounds skip p fuel d log with
      | (none, log) => (none, log)
      | (some (e, ms), log) => (some (e, ns ++ ms), log)

/-- As many rounds as match. -/
def star (skip : Cursor → Cursor) (fuel : Nat) (p : Matcher) : Matcher := fun c log =>
  match p c log with
  | (none, log) => (some (c, []), log)
  | (some (d, ns), log) =>
    match rounds skip p fuel d log with
    | (none, log) => (none, log)
    | (some (e, ms), log) => (some (e, ns ++ ms), log)

/-- One match or none. -/
def opt (p : Matcher) : Matcher := fun c log =>
  match p c log with
  | (none, log) => (some (c, []), log)
  | found => found

/-- Whether it matches; the place stays. -/
def ahead (p : Matcher) : Matcher := fun c log =>
  match p c log with
  | (none, log) => (none, log)
  | (some _, log) => (some (c, []), log)

/-- Whether it does not match; the place stays. -/
def notAhead (p : Matcher) : Matcher := fun c log =>
  match p c log with
  | (none, log) => (some (c, []), log)
  | (some _, log) => (none, log)

/-- A match of the rule `r`, given a match of its pattern. -/
def node (mode : Mode) (r : Rule) (p : Matcher) : Matcher := fun c log =>
  -- what stood at this place before the rule was tried is not its own
  let before := log.countAt c.offset
  match p c log with
  | (none, log) => (none, if mode = .token then log else log.record c.offset before r)
  | (some (d, ns), log) =>
    (some (d, if mode = .building ∧ r.leavesNode then [.mk r c d ns] else []), log)

end Matcher

namespace Pattern

/-- The match of a pattern, given the matches of the rules; repetitions go on for at most `fuel` rounds. -/
def matcherWith (rules : Mode → Rule → Matcher) (skip : Cursor → Cursor) (fuel : Nat) :
    Pattern → Mode → Matcher
  | .nothing, _ => .move some
  | .text cs, _ => .move (Cursor.text? cs)
  | .one cls, _ => .move (Cursor.one? cls)
  | .atEnd, _ => .move fun c => if c.rest.isEmpty then some c else none
  | .rule r, m => rules m r
  | .seq p q, m =>
    .seq (if m = .token then id else skip) (matcherWith rules skip fuel p m)
      (matcherWith rules skip fuel q m)
  | .alt p q, m => .alt (matcherWith rules skip fuel p m) (matcherWith rules skip fuel q m)
  | .star p, m => .star (if m = .token then id else skip) fuel (matcherWith rules skip fuel p m)
  | .opt p, m => .opt (matcherWith rules skip fuel p m)
  | .ahead p, m => .ahead (matcherWith rules skip fuel p m.look)
  | .notAhead p, m => .notAhead (matcherWith rules skip fuel p m.look)

end Pattern

/-- Past blanks and comments. -/
def skipTrivia (fuel : Nat) (c : Cursor) : Cursor :=
  match c.rest with
  | [] => c
  | x :: _ =>
    if x = ' ' ∨ x = '\t' ∨ x = '\r' ∨ x = '\n' ∨ x = '/' then
      match trivia.matcherWith (fun _ _ => .move fun _ => none) id fuel .token c .start with
      | (some (d, _), _) => d
      | (none, _) => c
    else c

/-- The match of a rule; `fuel` bounds how deep rules may nest. -/
def Rule.matcher : Nat → Mode → Rule → Matcher
  | 0, _, _ => .move fun _ => none
  | fuel + 1, mode, r =>
    .node mode r
      (r.pattern.matcherWith (Rule.matcher fuel) (skipTrivia fuel) fuel
        (if r.isToken then .token else mode))

/-- Nesting that a source of the given length cannot exceed: at most sixteen rules lie between two
characters that are read. -/
def nestingBound (length : Nat) : Nat := 16 * (length + 2)

/-- The parse tree of a whole source, or the attempts at the place where it stops being one. -/
def Node.ofSource (source : List Char) : Except Attempts Node :=
  match Rule.matcher (nestingBound source.length) .building .main (.ofList source) .start with
  | (some (_, [n]), _) => .ok n
  | (_, log) => .error log

end HostExpr
