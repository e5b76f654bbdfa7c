import HostExpr.Proofs.Engine.Compile
import HostExpr.Proofs.Syntax.Build
import HostExpr.Proofs.Syntax.Nesting
import HostExpr.Syntax.Parse

/-!
# The limit on nesting

A limit on nesting only cuts: where a source is read under a limit, it is read in the same way under every larger one,
and what a limit makes of a source is what larger ones make of it or the failure that names the limit. What is read
nests no deeper than the limit allows. Both are facts about two builds of one node, under a limit and a larger one, and
are carried through the builder together, as `Limits`.
-/

namespace HostExpr.Syntax

variable {α β : Type} {limit limit' depth : Nat}

/-- Two builds of one part, the first under the smaller limit: both give a value that satisfies `Q`, or both fail for the
same reason, or the first one stops at its limit. -/
inductive Limits (limit : Nat) (Q : α → Prop) : Build α → Build α → Prop
  | ok {a : α} (value : Q a) : Limits limit Q (.ok a) (.ok a)
  | error (e : ParseError) : Limits limit Q (.error e) (.error e)
  | stops (span : Span) (y : Build α) : Limits limit Q (.error ⟨.tooDeep limit, span⟩) y

namespace Limits

variable {Q Q' : α → Prop} {R : β → Prop} {x y : Build α}

theorem bind {f g : α → Build β} (h : Limits limit Q x y) (rest : ∀ a, Q a → Limits limit R (f a) (g a)) :
    Limits limit R (x >>= f) (y >>= g) := by
  cases h with
  | ok value => exact rest _ value
  | error e => exact .error e
  | stops span y => exact .stops span (y >>= g)

theorem map {f : α → β} (h : Limits limit Q x y) (rest : ∀ a, Q a → R (f a)) :
    Limits limit R (f <$> x) (f <$> y) := by
  cases h with
  | ok value => exact .ok (rest _ value)
  | error e => exact .error e
  | stops span y => exact .stops span (f <$> y)

theorem mono (h : Limits limit Q x y) (imp : ∀ a, Q a → Q' a) : Limits limit Q' x y := by
  cases h with
  | ok value => exact .ok (imp _ value)
  | error e => exact .error e
  | stops span y => exact .stops span y

/-- A build that does not look at the limit. -/
theorem same (x : Build α) (value : ∀ a, x = .ok a → Q a) : Limits limit Q x x := by
  cases x with
  | error e => exact .error e
  | ok a => exact .ok (value a rfl)

theorem required {n : Node} {a : Option α} (value : ∀ x, a = some x → Q x) :
    Limits limit Q (Syntax.required n a) (Syntax.required n a) := by
  cases a with
  | none => exact .error _
  | some x => exact .ok (value x rfl)

/-- What the first build gives. -/
theorem value (h : Limits limit Q x y) {a : α} (gives : x = .ok a) : Q a ∧ y = .ok a := by
  cases h with
  | ok value =>
    cases gives
    exact ⟨value, rfl⟩
  | error e => cases gives
  | stops span y => cases gives

/-- What the second build makes, the first one makes too if it does not stop. -/
theorem same_or_stops (h : Limits limit Q x y) : x = y ∨ ∃ span, x = .error ⟨.tooDeep limit, span⟩ := by
  cases h with
  | ok value => exact .inl rfl
  | error e => exact .inl rfl
  | stops span y => exact .inr ⟨span, rfl⟩

end Limits

/-! ## Expressions -/

mutual

/-- An expression that is read nests within the limit from where its node is. -/
theorem limits_buildExpr (larger : limit ≤ limit') (depth : Nat) (n : Node) :
    Limits limit (Expr.Fits limit depth) (buildExpr limit depth n) (buildExpr limit' depth n) := by
  match n with
  | .mk rule a b ns =>
    -- by recursion on the node: a wider limit changes the outcome only where the narrower one stops
    unfold buildExpr
    dsimp only
    by_cases deep : limit ≤ depth
    · rw [if_pos deep]
      exact .stops _ _
    rw [if_neg deep, if_neg (by omega)]
    have deep : depth < limit := by omega
    split
    · -- an assignment
      rename_i target op value
      refine .bind (limits_buildExpr larger (depth + 1) target) fun target ht => ?_
      refine .bind (limits_buildExpr larger (depth + 1) value) fun value hv => ?_
      exact .ok (fits_of_encloses deep (by simp [Expr.nesting, Expr.levels, Expr.children, levelsAll])
        (by simpa [Expr.children] using ⟨ht, hv⟩))
    · -- an expression, without and with a question mark
      exact (limits_buildExpr larger (depth + 1) _).mono fun _ h => h.rise
    · rename_i cond a' b' yes no
      refine .bind (limits_buildExpr larger (depth + 1) cond) fun cond hc => ?_
      refine .bind (limits_buildExpr larger (depth + 1) yes) fun yes hy => ?_
      refine .bind (limits_buildExpr larger (depth + 1) no) fun no hn => ?_
      exact .ok (fits_of_encloses deep (by simp [Expr.nesting, Expr.levels, Expr.children, levelsAll])
        (by simpa [Expr.children] using ⟨hc, hy, hn⟩))
    · -- the operations
      refine .bind (limits_buildPieces larger (depth + 1) _) fun pieces row => ?_
      exact .required fun e assembled => fits_assemble deep row assembled
    · refine .bind (limits_buildPieces larger (depth + 1) _) fun pieces row => ?_
      exact .required fun e assembled => fits_assemble deep row assembled
    · -- parentheses
      exact (limits_buildExpr larger (depth + 1) _).mono fun _ h => h.rise
    · -- calls and new objects
      refine .bind (limits_buildExprs larger (depth + 1) _) fun args ha => ?_
      exact .ok (fits_of_encloses deep rfl ha)
    · refine .bind (.required fun _ _ => trivial) fun type _ => ?_
      refine .bind (limits_buildExprs larger (depth + 1) _) fun args ha => ?_
      exact .ok (fits_of_encloses deep rfl ha)
    · -- arrays
      refine .bind (.required fun _ _ => trivial) fun type _ => ?_
      refine .bind (limits_buildExprs larger (depth + 1) _) fun items hi => ?_
      exact .ok (fits_of_encloses deep rfl hi)
    · refine .bind (.required fun _ _ => trivial) fun type _ => ?_
      refine .bind (limits_buildExpr larger (depth + 1) _) fun length hl => ?_
      exact .ok (fits_of_encloses deep (by simp [Expr.nesting, Expr.levels, Expr.children, levelsAll])
        (by simpa [Expr.children] using hl))
    · refine .bind (limits_buildExprs larger (depth + 1) _) fun items hi => ?_
      exact .ok (fits_of_encloses deep rfl hi)
    · -- lists and maps
      refine .bind (limits_buildExprs larger (depth + 1) _) fun items hi => ?_
      exact .ok (fits_of_encloses deep rfl hi)
    · refine .bind (limits_buildEntries larger (depth + 1) _) fun entries he => ?_
      exact .ok (fits_of_encloses deep (congrArg (· + 1) (levelsEntries_eq 0 entries)) he)
    · -- names and literals
      exact .ok deep
    · refine .bind (.same _ fun _ _ => trivial) fun value _ => ?_
      exact .ok deep
termination_by (sizeOf n, 0)

theorem limits_buildExprs (larger : limit ≤ limit') (depth : Nat) (ns : List Node) :
    Limits limit (fun es => ∀ e ∈ es, e.Fits limit depth) (buildExprs limit depth ns) (buildExprs limit' depth ns) := by
  cases ns with
  | nil =>
    unfold buildExprs
    exact .ok (List.forall_mem_nil _)
  | cons n ns =>
    unfold buildExprs
    refine .bind (limits_buildExpr larger depth n) fun e he => ?_
    refine .bind (limits_buildExprs larger depth ns) fun es hes => ?_
    exact .ok (List.forall_mem_cons.2 ⟨he, hes⟩)
termination_by (sizeOf ns, 0)

theorem limits_buildEntries (larger : limit ≤ limit') (depth : Nat) (ns : List Node) :
    Limits limit (fun es => ∀ e ∈ es.flatMap fun (k, v) => [k, v], e.Fits limit depth)
      (buildEntries limit depth ns) (buildEntries limit' depth ns) := by
  unfold buildEntries
  split
  · exact .ok (List.forall_mem_nil _)
  · rename_i r a b key value ns
    refine .bind (limits_buildExpr larger depth key) fun key hk => ?_
    refine .bind (limits_buildExpr larger depth value) fun value hv => ?_
    refine .bind (limits_buildEntries larger depth ns) fun entries he => ?_
    exact .ok (List.forall_mem_cons.2 ⟨hk, List.forall_mem_cons.2 ⟨hv, he⟩⟩)
  · exact .error _
termination_by (sizeOf ns, 0)

/-- The operand that a piece is and the expressions that it holds lie where the operation does. -/
theorem limits_buildPiece (larger : limit ≤ limit') (depth : Nat) (n : Node) :
    Limits limit (Piece.All (Expr.Fits limit depth) (Expr.Fits limit depth)) (buildPiece limit depth n)
      (buildPiece limit' depth n) := by
  unfold buildPiece
  split
  · exact .map (limits_buildExpr larger depth n) fun e he => he
  split
  · exact .ok trivial
  · exact .ok trivial
  · exact .map (.required fun _ _ => trivial) fun _ _ => trivial
  · exact .map (limits_buildExprs larger depth _) fun args ha => ha
  · exact .ok (List.forall_mem_nil _)
  · exact .map (limits_buildExpr larger depth _) fun position hp => List.forall_mem_singleton.2 hp
  · exact .ok (List.forall_mem_nil _)
  · exact .ok (List.forall_mem_nil _)
  · split
    · exact .ok trivial
    · exact .error _
termination_by (sizeOf n, 1)

theorem limits_buildPieces (larger : limit ≤ limit') (depth : Nat) (ns : List Node) :
    Limits limit (fun ps => ∀ p ∈ ps, p.All (Expr.Fits limit depth) (Expr.Fits limit depth))
      (buildPieces limit depth ns) (buildPieces limit' depth ns) := by
  cases ns with
  | nil =>
    unfold buildPieces
    exact .ok (List.forall_mem_nil _)
  | cons n ns =>
    rw [buildPieces_cons, buildPieces_cons]
    refine .bind (limits_buildPiece larger depth n) fun piece hp => ?_
    refine .bind (limits_buildPieces larger depth ns) fun pieces row => ?_
    exact .ok (List.forall_mem_cons.2 ⟨hp, row⟩)
termination_by (sizeOf ns, 0)

end

/-! ## Statements -/

/-- The expressions in a statement nest within the limit. -/
abbrev Stmt.Fits (limit : Nat) (s : Stmt) : Prop := s.All (Expr.Fits limit 0)

theorem limits_buildDeclarator (larger : limit ≤ limit') (n : Node) :
    Limits limit (fun x => ∀ e ∈ x.init, e.Fits limit 0) (buildDeclarator limit n) (buildDeclarator limit' n) := by
  unfold buildDeclarator
  split
  · exact .ok fun e he => by cases he
  · refine .bind (limits_buildExpr larger 0 _) fun init hi => ?_
    exact .ok (by simpa using hi)
  · exact .error _

theorem limits_buildDeclarators (larger : limit ≤ limit') (ns : List Node) :
    Limits limit (fun ds => ∀ x ∈ ds, ∀ e ∈ x.init, e.Fits limit 0) (buildDeclarators limit ns)
      (buildDeclarators limit' ns) := by
  unfold buildDeclarators
  induction ns with
  | nil => exact .ok (List.forall_mem_nil _)
  | cons n ns ih =>
    rw [List.mapM_cons, List.mapM_cons]
    refine .bind (limits_buildDeclarator larger n) fun x hx => ?_
    refine .bind ih fun ds hds => ?_
    exact .ok (List.forall_mem_cons.2 ⟨hx, hds⟩)

/-- The expressions in the parts of a counting loop nest within the limit. -/
structure LoopParts.Fits (limit : Nat) (parts : LoopParts) : Prop where
  init : ∀ s ∈ parts.init, s.Fits limit
  cond : ∀ e ∈ parts.cond, e.Fits limit 0
  update : ∀ e ∈ parts.update, e.Fits limit 0
  body : ∀ s ∈ parts.body, s.Fits limit

mutual

/-- The expressions of a statement are counted from the start. -/
theorem limits_buildStmt (larger : limit ≤ limit') (n : Node) :
    Limits limit (Stmt.Fits limit) (buildStmt limit n) (buildStmt limit' n) := by
  match n with
  | .mk rule a b ns =>
    unfold buildStmt
    dsimp only
    split
    · -- a block
      refine .bind (limits_buildStmts larger _) fun body hb => ?_
      exact .ok (.mk (by simp [Stmt.exprs]) (by simpa [Stmt.children] using hb))
    · -- a branch, without and with its second body
      refine .bind (limits_buildExpr larger 0 _) fun cond hc => ?_
      refine .bind (limits_buildBody larger _) fun yes hy => ?_
      exact .ok (.mk (by simpa [Stmt.exprs] using hc) (by simpa [Stmt.children] using hy))
    · refine .bind (limits_buildExpr larger 0 _) fun cond hc => ?_
      refine .bind (limits_buildBody larger _) fun yes hy => ?_
      refine .bind (limits_buildBody larger _) fun no hn => ?_
      refine .ok (.mk (by simpa [Stmt.exprs] using hc) fun x hx => ?_)
      exact (List.mem_append.1 hx).elim (hy x) (hn x)
    · -- the loops
      refine .bind (limits_buildExpr larger 0 _) fun cond hc => ?_
      refine .bind (limits_buildBody larger _) fun body hb => ?_
      exact .ok (.mk (by simpa [Stmt.exprs] using hc) (by simpa [Stmt.children] using hb))
    · refine .bind (limits_buildExpr larger 0 _) fun items hi => ?_
      refine .bind (limits_buildBody larger _) fun body hb => ?_
      refine .bind (.same _ fun _ _ => trivial) fun named _ => ?_
      exact .ok (.mk (by simpa [Stmt.exprs] using hi) (by simpa [Stmt.children] using hb))
    · refine .bind (limits_buildLoop larger _) fun parts hp => ?_
      refine .ok (.mk (fun e he => ?_) fun x hx => ?_)
      · exact (List.mem_append.1 he).elim (fun h => hp.cond e (by simpa using h)) (hp.update e)
      · exact (List.mem_append.1 hx).elim (fun h => hp.init x (by simpa using h)) (hp.body x)
    · -- the statements without statements inside
      exact .ok (.mk (by simp [Stmt.exprs]) (by simp [Stmt.children]))
    · refine .bind (limits_buildExpr larger 0 _) fun value hv => ?_
      exact .ok (.mk (by simpa [Stmt.exprs] using hv) (by simp [Stmt.children]))
    · exact .ok (.mk (by simp [Stmt.exprs]) (by simp [Stmt.children]))
    · exact .ok (.mk (by simp [Stmt.exprs]) (by simp [Stmt.children]))
    · refine .bind (.same _ fun _ _ => trivial) fun type _ => ?_
      refine .bind (limits_buildDeclarators larger _) fun ds hds => ?_
      refine .ok (.mk (fun e he => ?_) (by simp [Stmt.children]))
      obtain ⟨declarator, hd, he⟩ := List.mem_filterMap.1 he
      exact hds declarator hd e he
    · refine .bind (limits_buildExpr larger 0 _) fun e he => ?_
      exact .ok (.mk (by simpa [Stmt.exprs] using he) (by simp [Stmt.children]))
termination_by (sizeOf n, 0)

theorem limits_buildStmts (larger : limit ≤ limit') (ns : List Node) :
    Limits limit (fun ss => ∀ s ∈ ss, s.Fits limit) (buildStmts limit ns) (buildStmts limit' ns) := by
  cases ns with
  | nil =>
    unfold buildStmts
    exact .ok (List.forall_mem_nil _)
  | cons n ns =>
    unfold buildStmts
    refine .bind (limits_buildStmt larger n) fun s hs => ?_
    refine .bind (limits_buildStmts larger ns) fun ss hss => ?_
    exact .ok (List.forall_mem_cons.2 ⟨hs, hss⟩)
termination_by (sizeOf ns, 0)

theorem limits_buildBody (larger : limit ≤ limit') (n : Node) :
    Limits limit (fun ss => ∀ s ∈ ss, s.Fits limit) (buildBody limit n) (buildBody limit' n) := by
  unfold buildBody
  split
  · exact limits_buildStmts larger _
  · refine .bind (limits_buildStmt larger _) fun s hs => ?_
    exact .ok (List.forall_mem_singleton.2 hs)
  · exact .error _
termination_by (sizeOf n, 0)

theorem limits_buildLoop (larger : limit ≤ limit') (ns : List Node) :
    Limits limit (LoopParts.Fits limit) (buildLoop limit ns) (buildLoop limit' ns) := by
  unfold buildLoop
  split
  · exact .ok (by constructor <;> simp)
  · refine .bind (limits_buildStmt larger _) fun init hi => ?_
    refine .bind (limits_buildLoop larger _) fun parts hp => ?_
    exact .ok { hp with init := by simpa using hi }
  · refine .bind (limits_buildExpr larger 0 _) fun cond hc => ?_
    refine .bind (limits_buildLoop larger _) fun parts hp => ?_
    exact .ok { hp with cond := by simpa using hc }
  · refine .bind (limits_buildExprs larger 0 _) fun update hu => ?_
    refine .bind (limits_buildLoop larger _) fun parts hp => ?_
    exact .ok { hp with update := hu }
  · refine .bind (limits_buildBody larger _) fun body hb => ?_
    refine .bind (limits_buildLoop larger _) fun parts hp => ?_
    exact .ok { hp with body := hb }
termination_by (sizeOf ns, 0)

end

/-! ## Sources -/

/-- A source is matched without a limit; only building its tree looks at one. -/
theorem limits_parseWithLimit (larger : limit ≤ limit') (source : String) :
    Limits limit (fun body => ∀ s ∈ body, s.Fits limit) (parseWithLimit limit source)
      (parseWithLimit limit' source) := by
  unfold parseWithLimit
  split
  · exact .error _
  · exact limits_buildStmts larger _
  · exact .error _

/-- Reading the source stops at the limit, and says so. -/
def StopsAt (limit : Nat) (source : String) : Prop :=
  ∃ span, parseWithLimit limit source = .error ⟨.tooDeep limit, span⟩

/-- A limit does nothing but stop. What is read under it is read under any larger one, with the same statements and
spans; and what is read under the larger one, or is why reading fails there, comes of the smaller one too unless this one
stops. -/
theorem parseWithLimit_of_le (larger : limit ≤ limit') (source : String) :
    (∀ body, parseWithLimit limit source = .ok body → parseWithLimit limit' source = .ok body) ∧
    (∀ body, parseWithLimit limit' source = .ok body →
      parseWithLimit limit source = .ok body ∨ StopsAt limit source) ∧
    (∀ e, parseWithLimit limit' source = .error e →
      parseWithLimit limit source = .error e ∨ StopsAt limit source) := by
  have both := limits_parseWithLimit larger source
  refine ⟨?_, ?_, ?_⟩
  · intro body h
    exact (both.value h).2
  · intro body h
    rcases both.same_or_stops with same | stops
    · exact .inl (same.trans h)
    · exact .inr stops
  · intro e h
    rcases both.same_or_stops with same | stops
    · exact .inl (same.trans h)
    · exact .inr stops

/-- A single digit is three levels deep: it is read under a limit of three as under the usual one, and reading stops at a
limit of two. -/
theorem parseWithLimit_of_le_digit :
    2 ≤ 3 ∧ 3 ≤ defaultMaxDepth ∧ StopsAt 2 "1" ∧
      ∃ body, parseWithLimit 3 "1" = .ok body ∧ parseWithLimit defaultMaxDepth "1" = .ok body := by
  have small : 2 ≤ 3 := by decide
  have usual : 3 ≤ defaultMaxDepth := by decide
  have found : (parseWithLimit 3 "1").toOption.any fun _ => true := by decide +kernel
  have refused : (parseWithLimit 2 "1").toOption.isNone := by decide +kernel
  obtain ⟨body, read, -⟩ := exists_ok_of_any found
  obtain ⟨-, kept, -⟩ := parseWithLimit_of_le small "1"
  obtain ⟨widened, -, -⟩ := parseWithLimit_of_le usual "1"
  refine ⟨small, usual, ?_, body, read, widened body read⟩
  rcases kept body read with same | stops
  · rw [same] at refused
    cases refused
  · exact stops

/-- The expressions of a source that is read under a limit nest within it, whatever statement they stand in. -/
theorem nesting_le_of_parseWithLimit {source : String} {body : List Stmt}
    (h : parseWithLimit limit source = .ok body) : ∀ s ∈ body, s.All fun e => e.nesting ≤ limit := by
  have fits := ((limits_parseWithLimit (Nat.le_refl limit) source).value h).1
  intro s hs
  refine (fits s hs).mono fun e he => ?_
  unfold Expr.Fits at he
  omega

/-- A call with a chain of members as its argument, in a loop: it is read under a limit of six. -/
theorem nesting_le_of_parseWithLimit_chain :
    ∃ body, parseWithLimit 6 "while (f(a.b.c.d.e.g)) \x7b\x7d" = .ok body ∧
      ∀ s ∈ body, s.All fun e => e.nesting ≤ 6 := by
  have found : (parseWithLimit 6 "while (f(a.b.c.d.e.g)) \x7b\x7d").toOption.any fun _ => true := by decide +kernel
  obtain ⟨body, read, -⟩ := exists_ok_of_any found
  exact ⟨body, read, nesting_le_of_parseWithLimit read⟩

/-- The limit is none on the height: a row of operators in front of an operand costs no levels. -/
theorem not_height_le_of_parseWithLimit :
    ¬ ∀ (limit : Nat) (source : String) (body : List Stmt), parseWithLimit limit source = .ok body →
      ∀ s ∈ body, s.All fun e => e.height ≤ limit := by
  intro all
  have found : (parseWithLimit 3 "!!!a").toOption.any fun body =>
      body.any fun s => s.exprs.any fun e => 3 < e.height := by decide +kernel
  obtain ⟨body, read, high⟩ := exists_ok_of_any found
  obtain ⟨s, hs, high⟩ := List.any_eq_true.1 high
  obtain ⟨e, he, high⟩ := List.any_eq_true.1 high
  cases all 3 "!!!a" body read s hs with
  | mk exprs inside => exact absurd (exprs e he) (Nat.not_le.2 (of_decide_eq_true high))

end HostExpr.Syntax
