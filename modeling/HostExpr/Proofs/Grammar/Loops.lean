import HostExpr.Proofs.Grammar.Derived
import HostExpr.Syntax.Parse

/-!
# How `for` statements start

The grammar lets a `for` statement start with a declaration or an expression only.
-/

namespace HostExpr

namespace Syntax

/-- What a `for` statement can start with. -/
def StartsLoop : Option Stmt → Prop
  | none | some (.expr _) | some (.declare _ _) => True
  | _ => False

mutual

/-- All `for` statements in a statement start as the grammar lets them. -/
def Stmt.Grammatical : Stmt → Prop
  | .expr _ | .declare _ _ | .returns _ | .importPath _ _ _ => True
  | .branch _ thenBody elseBody =>
    Stmt.GrammaticalAll thenBody ∧
      match elseBody with
      | some body => Stmt.GrammaticalAll body
      | none => True
  | .whileLoop _ body | .forEach _ _ _ _ body | .block body => Stmt.GrammaticalAll body
  | .forLoop init _ _ body => StartsLoop init ∧ Stmt.GrammaticalAll body

/-- All `for` statements in a row of statements start as the grammar lets them. -/
def Stmt.GrammaticalAll : List Stmt → Prop
  | [] => True
  | s :: ss => s.Grammatical ∧ Stmt.GrammaticalAll ss

end

/-- A build that gives a part gives one from which the rest goes on. -/
theorem Build.bind_ok {α β : Type} {x : Build α} {f : α → Build β} {b : β} (h : (x >>= f) = .ok b) :
    ∃ a, x = .ok a ∧ f a = .ok b := by
  cases x with
  | error e => cases h
  | ok a => exact ⟨a, rfl, h⟩

theorem Build.pure_ok {α : Type} {a b : α} (h : (pure a : Build α) = .ok b) : a = b := by
  cases h
  rfl

/-- A declaration, an assignment or an expression builds what can start a `for` statement. -/
theorem startsLoop_build {limit : Nat} {n : Node} {s : Stmt} (hr : n.rule ∈ Rule.forInit.pattern.offers)
    (h : buildStmt limit n = .ok s) : StartsLoop (some s) := by
  obtain ⟨r, a, b, ns⟩ := n
  have hr : r = .declaration ∨ r = .assignment ∨ r = .expression := by
    simpa [Node.rule, Rule.pattern, Pattern.offers, Pattern.first, exprOrAssign] using hr
  rcases hr with rfl | rfl | rfl
  · cases ns with
    | nil =>
      obtain ⟨_, -, h⟩ := Build.bind_ok h
      obtain rfl := Build.pure_ok h
      trivial
    | cons type declarators =>
      obtain ⟨_, -, h⟩ := Build.bind_ok h
      obtain ⟨_, -, h⟩ := Build.bind_ok h
      obtain rfl := Build.pure_ok h
      trivial
  all_goals
    obtain ⟨_, -, h⟩ := Build.bind_ok h
    obtain rfl := Build.pure_ok h
    trivial

/-- What is built from a node is grammatical, whether it is taken for a statement, for a body or for a row. -/
structure BuildsGrammatical (limit : Nat) (n : Node) : Prop where
  stmt : ∀ s, buildStmt limit n = .ok s → s.Grammatical
  body : ∀ ss, buildBody limit n = .ok ss → Stmt.GrammaticalAll ss
  row : ∀ ss, buildStmts limit n.children = .ok ss → Stmt.GrammaticalAll ss

/-- Statements in a row. -/
theorem grammatical_stmts {limit : Nat} {ns : List Node} (hn : ∀ n ∈ ns, BuildsGrammatical limit n)
    {ss : List Stmt} (h : buildStmts limit ns = .ok ss) : Stmt.GrammaticalAll ss := by
  induction ns generalizing ss with
  | nil =>
    obtain rfl := Build.pure_ok h
    trivial
  | cons n ns ih =>
    obtain ⟨s, hs, h⟩ := Build.bind_ok h
    obtain ⟨rest, hr, h⟩ := Build.bind_ok h
    obtain rfl := Build.pure_ok h
    exact ⟨(hn n (.head ns)).stmt s hs, ih (fun n hm => hn n (.tail _ hm)) hr⟩

/-- The body of a branch or loop: the block in it is also the block of a statement. -/
theorem grammatical_body {limit : Nat} {n : Node} (hn : ∀ n' ∈ n.children, BuildsGrammatical limit n')
    {ss : List Stmt} (h : buildBody limit n = .ok ss) : Stmt.GrammaticalAll ss := by
  unfold buildBody at h
  split at h
  · rename_i c d r e f row
    have block : buildStmt limit (.mk .block c d [.mk r e f row]) = .ok (.block ss) := by
      show (do let body ← buildStmts limit row; return Stmt.block body) = _
      rw [h]
      rfl
    exact (hn _ (.head [])).stmt _ block
  · rename_i n _
    obtain ⟨s, hs, h⟩ := Build.bind_ok h
    obtain rfl := Build.pure_ok h
    exact ⟨(hn n (.head [])).stmt s hs, trivial⟩
  · cases h

/-- The parts of a counting loop. -/
theorem grammatical_loop {limit : Nat} {ns : List Node} (hd : ∀ n ∈ ns, n.Derived)
    (hn : ∀ n ∈ ns, BuildsGrammatical limit n) {parts : LoopParts} (h : buildLoop limit ns = .ok parts) :
    StartsLoop parts.init ∧ Stmt.GrammaticalAll parts.body := by
  induction ns generalizing parts with
  | nil =>
    obtain rfl := Build.pure_ok h
    exact ⟨trivial, trivial⟩
  | cons n ns ih =>
    -- the parts of a loop are collected from the back; what is in front may only add one of them
    have others : ∀ rest, buildLoop limit ns = .ok rest → StartsLoop rest.init ∧ Stmt.GrammaticalAll rest.body :=
      fun rest => ih (fun n hm => hd n (.tail _ hm)) fun n hm => hn n (.tail _ hm)
    have first := hn n (.head ns)
    have derived := hd n (.head ns)
    unfold buildLoop at h
    split at h
    · cases ‹n :: ns = []›
    · rename_i c d init ns' same
      obtain ⟨rfl, rfl⟩ := List.cons.inj same
      obtain ⟨s, hi, h⟩ := Build.bind_ok h
      obtain ⟨rest, hr, h⟩ := Build.bind_ok h
      obtain rfl := Build.pure_ok h
      exact ⟨startsLoop_build (derived.offered init (.head [])) hi, (others rest hr).2⟩
    · rename_i same
      obtain ⟨rfl, rfl⟩ := List.cons.inj same
      obtain ⟨_, -, h⟩ := Build.bind_ok h
      obtain ⟨rest, hr, h⟩ := Build.bind_ok h
      obtain rfl := Build.pure_ok h
      exact ⟨(others rest hr).1, (others rest hr).2⟩
    · rename_i same
      obtain ⟨rfl, rfl⟩ := List.cons.inj same
      obtain ⟨_, -, h⟩ := Build.bind_ok h
      obtain ⟨rest, hr, h⟩ := Build.bind_ok h
      obtain rfl := Build.pure_ok h
      exact ⟨(others rest hr).1, (others rest hr).2⟩
    · rename_i same
      obtain ⟨rfl, rfl⟩ := List.cons.inj same
      obtain ⟨body, hb, h⟩ := Build.bind_ok h
      obtain ⟨rest, hr, h⟩ := Build.bind_ok h
      obtain rfl := Build.pure_ok h
      exact ⟨(others rest hr).1, first.body body hb⟩

/-- What is built from a node that follows the grammar is grammatical. -/
theorem grammatical_build (limit : Nat) {n : Node} (hd : n.Derived) : BuildsGrammatical limit n := by
  -- by induction on the derivation: what the grammar offers below a rule bounds what a builder can meet there
  induction hd with
  | mk r a b ns offered inside ih =>
    refine ⟨?_, fun ss h => grammatical_body (n := .mk r a b ns) ih h, fun ss h => grammatical_stmts ih h⟩
    intro s h
    unfold buildStmt at h
    split at h
    · -- a block
      obtain ⟨ss, hb, h⟩ := Build.bind_ok h
      obtain rfl := Build.pure_ok h
      exact (ih _ (.head [])).row ss hb
    · -- a branch, without and with its second body
      rename_i cond yes
      obtain ⟨_, -, h⟩ := Build.bind_ok h
      obtain ⟨ss, hy, h⟩ := Build.bind_ok h
      obtain rfl := Build.pure_ok h
      exact ⟨(ih yes (by simp)).body ss hy, trivial⟩
    · rename_i cond yes no
      obtain ⟨_, -, h⟩ := Build.bind_ok h
      obtain ⟨ss, hy, h⟩ := Build.bind_ok h
      obtain ⟨ss', hn, h⟩ := Build.bind_ok h
      obtain rfl := Build.pure_ok h
      exact ⟨(ih yes (by simp)).body ss hy, (ih no (by simp)).body ss' hn⟩
    · -- the loops
      rename_i cond body
      obtain ⟨_, -, h⟩ := Build.bind_ok h
      obtain ⟨ss, hb, h⟩ := Build.bind_ok h
      obtain rfl := Build.pure_ok h
      exact (ih body (by simp)).body ss hb
    · rename_i head items body
      obtain ⟨_, -, h⟩ := Build.bind_ok h
      obtain ⟨ss, hb, h⟩ := Build.bind_ok h
      obtain ⟨_, -, h⟩ := Build.bind_ok h
      obtain rfl := Build.pure_ok h
      exact (ih body (by simp)).body ss hb
    · obtain ⟨parts, hp, h⟩ := Build.bind_ok h
      obtain rfl := Build.pure_ok h
      exact grammatical_loop inside ih hp
    · -- the statements without statements inside
      obtain rfl := Build.pure_ok h
      trivial
    · obtain ⟨_, -, h⟩ := Build.bind_ok h
      obtain rfl := Build.pure_ok h
      trivial
    · obtain rfl := Build.pure_ok h
      trivial
    · obtain rfl := Build.pure_ok h
      trivial
    · obtain ⟨_, -, h⟩ := Build.bind_ok h
      obtain ⟨_, -, h⟩ := Build.bind_ok h
      obtain rfl := Build.pure_ok h
      trivial
    · obtain ⟨_, -, h⟩ := Build.bind_ok h
      obtain rfl := Build.pure_ok h
      trivial

/-- The statements of a source are grammatical. -/
theorem grammatical_parse {limit : Nat} {source : String} {ss : List Stmt}
    (h : parseWithLimit limit source = .ok ss) : Stmt.GrammaticalAll ss := by
  unfold parseWithLimit at h
  split at h
  · cases h
  · rename_i tree
    obtain ⟨-, hd⟩ := Node.ofSource_derived tree
    exact (grammatical_build limit (hd.inside _ (.head []))).row ss h
  · cases h

end Syntax

end HostExpr
