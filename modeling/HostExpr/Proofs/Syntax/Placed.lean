import HostExpr.Proofs.Syntax.Build
import HostExpr.Proofs.Syntax.Spans
import HostExpr.Syntax.Parse

/-!
# Syntax trees are placed

Building a syntax tree keeps where the nodes of the parse tree lie. What is built of a node lies where the node does,
and if a build fails it is at the span of a node. So all spans of a parsed source, and that of an error, can be used to
cut the source.
-/

namespace HostExpr.Syntax

variable {α β : Type} {P P' : Span → Prop} {c c' d d' : Cursor}

/-- What a build gives satisfies `Q`, and if it fails, `P` holds of the span of the failure. -/
inductive Places (P : Span → Prop) (Q : α → Prop) : Build α → Prop
  | ok {a : α} (value : Q a) : Places P Q (.ok a)
  | error {e : ParseError} (span : P e.span) : Places P Q (.error e)

namespace Places

variable {Q Q' : α → Prop} {R : β → Prop}

theorem bind {x : Build α} {f : α → Build β} (h : Places P Q x) (rest : ∀ a, Q a → Places P R (f a)) :
    Places P R (x >>= f) := by
  cases h with
  | ok value => exact rest _ value
  | error span => exact .error span

theorem map {x : Build α} {f : α → β} (h : Places P Q x) (rest : ∀ a, Q a → R (f a)) : Places P R (f <$> x) := by
  cases h with
  | ok value => exact .ok (rest _ value)
  | error span => exact .error span

theorem mono {x : Build α} (h : Places P Q x) (spans : ∀ s, P s → P' s) (values : ∀ a, Q a → Q' a) :
    Places P' Q' x := by
  cases h with
  | ok value => exact .ok (values _ value)
  | error span => exact .error (spans _ span)

theorem required {n : Node} {a : Option α} (here : P n.span) (value : ∀ x, a = some x → Q x) :
    Places P Q (Syntax.required n a) := by
  cases a with
  | none => exact .error here
  | some x => exact .ok (value x rfl)

end Places

/-- A node lies where its start and end are. -/
theorem between_of_laid {n : Node} (h : Laid c [n] d) : n.span.Between c d := by
  obtain ⟨r, a, b, ns⟩ := n
  obtain ⟨before, inside, behind⟩ := h.of_single
  exact (Span.Between.of_reaches inside.reaches).widen before behind

/-! ## Types -/

mutual

/-- A type lies where its node does. -/
theorem placed_typeExpr? (n : Node) {t : TypeExpr} (laid : Laid c [n] d) (h : typeExpr? n = some t) :
    t.Placed (Span.Between c d) := by
  have here := between_of_laid laid
  unfold typeExpr? at h
  split at h
  · rename_i a b name
    obtain ⟨t', read, rfl⟩ := Option.map_eq_some_iff.1 h
    exact .mk here (placed_typeName? name laid.inner read).args
  · rename_i a b name dims
    obtain ⟨t', read, rfl⟩ := Option.map_eq_some_iff.1 h
    exact .mk here (placed_typeName? name (laid.inner.mem (.head _)) read).args
  · cases h
termination_by sizeOf n

theorem placed_typeName? (n : Node) {t : TypeExpr} (laid : Laid c [n] d) (h : typeName? n = some t) :
    t.Placed (Span.Between c d) := by
  have here := between_of_laid laid
  unfold typeName? at h
  split at h
  · cases h
    exact .mk here (List.forall_mem_nil _)
  · rename_i a b path a' b' args
    obtain ⟨ts, read, rfl⟩ := Option.map_eq_some_iff.1 h
    have inner : Laid c [.mk .typeArgs a' b' args] d := laid.inner.mem (by simp)
    exact .mk here (placed_typeExprs? args inner.inner read)
  · cases h
termination_by sizeOf n

theorem placed_typeExprs? (ns : List Node) {ts : List TypeExpr} (laid : Laid c ns d) (h : typeExprs? ns = some ts) :
    ∀ t ∈ ts, t.Placed (Span.Between c d) := by
  cases ns with
  | nil =>
    cases h
    exact fun t ht => by cases ht
  | cons n ns =>
    unfold typeExprs? at h
    split at h
    · rename_i t ts first rest
      cases h
      exact List.forall_mem_cons.2
        ⟨placed_typeExpr? n (laid.mem (.head ns)) first, placed_typeExprs? ns laid.tail rest⟩
    · cases h
termination_by sizeOf ns

end

/-! ## Expressions -/

theorem places_literalOf {n : Node} (here : P n.span) : Places P (fun _ => True) (literalOf n) := by
  unfold literalOf
  repeat' split
  all_goals first | exact .ok trivial | exact .error here

/-- An expression with the span of its node lies there, if all that is right below it does. -/
theorem placed_node {a b : Cursor} {e : Expr} (reaches : a.Reaches b) (same : e.span = ⟨a.offset, b.offset⟩)
    (type : ∀ t ∈ e.type?, t.Placed (Span.Between a b)) (inside : ∀ x ∈ e.children, x.Placed (Span.Between a b)) :
    e.Placed (Span.Between a b) := by
  refine .mk ?_ type (fun x hx => ?_) inside
  · rw [same]
    exact .of_reaches reaches
  · rw [same]
    exact (inside x hx).span.within

mutual

/-- An expression lies where its node does. -/
theorem places_buildExpr (limit depth : Nat) (n : Node) {c d : Cursor} (laid : Laid c [n] d) :
    Places (Span.Between c d) (Expr.Placed (Span.Between c d)) (buildExpr limit depth n) := by
  match n, laid with
  | .mk rule a b ns, laid =>
    obtain ⟨before, inside, behind⟩ := laid.of_single
    suffices own : Places (Span.Between a b) (Expr.Placed (Span.Between a b))
        (buildExpr limit depth (.mk rule a b ns)) from
      own.mono (fun _ h => h.widen before behind) fun _ h => h.widen before behind
    have reaches := inside.reaches
    have here : Span.Between a b ⟨a.offset, b.offset⟩ := .of_reaches reaches
    have untyped {e : Expr} (h : e.type? = none) : ∀ t ∈ e.type?, t.Placed (Span.Between a b) := by simp [h]
    -- by recursion on the node: what is built from it lies where it lies
    unfold buildExpr
    dsimp only
    split
    · exact .error here
    split
    · -- an assignment
      rename_i target op value
      refine .bind (places_buildExpr limit (depth + 1) target (inside.mem (by simp))) fun target ht => ?_
      refine .bind (places_buildExpr limit (depth + 1) value (inside.mem (by simp))) fun value hv => ?_
      exact .ok (placed_node reaches rfl (untyped rfl) (by simpa [Expr.children] using ⟨ht, hv⟩))
    · -- an expression, without and with a question mark
      exact places_buildExpr limit (depth + 1) _ inside
    · rename_i cond a' b' yes no
      have branches : Laid a [yes, no] b := (inside.mem (n := .mk .ternaryTail a' b' [yes, no]) (by simp)).inner
      refine .bind (places_buildExpr limit (depth + 1) cond (inside.mem (by simp))) fun cond hc => ?_
      refine .bind (places_buildExpr limit (depth + 1) yes (branches.mem (by simp))) fun yes hy => ?_
      refine .bind (places_buildExpr limit (depth + 1) no (branches.mem (by simp))) fun no hn => ?_
      exact .ok (placed_node reaches rfl (untyped rfl) (by simpa [Expr.children] using ⟨hc, hy, hn⟩))
    · -- the operations
      refine .bind (places_buildPieces limit (depth + 1) _ inside) fun pieces row => ?_
      exact .required here fun e assembled => placed_assemble row assembled
    · refine .bind (places_buildPieces limit (depth + 1) _ inside) fun pieces row => ?_
      exact .required here fun e assembled => placed_assemble row assembled
    · -- parentheses
      exact places_buildExpr limit (depth + 1) _ inside
    · -- calls and new objects
      rename_i name args
      refine .bind (places_buildExprs limit (depth + 1) args inside.tail) fun args ha => ?_
      exact .ok (placed_node reaches rfl (untyped rfl) ha)
    · rename_i type args
      refine .bind (.required here fun t read => placed_typeExpr? type (inside.mem (.head _)) read) fun type ht => ?_
      refine .bind (places_buildExprs limit (depth + 1) args inside.tail) fun args ha => ?_
      exact .ok (placed_node reaches rfl (by simpa [Expr.type?] using ht) ha)
    · -- arrays
      rename_i type dims r a' b' items
      have row : Laid a items b := (inside.mem (n := .mk r a' b' items) (by simp)).inner
      refine .bind (.required here fun t read => placed_typeName? type (inside.mem (.head _)) read) fun type ht => ?_
      refine .bind (places_buildExprs limit (depth + 1) items row) fun items hi => ?_
      exact .ok (placed_node reaches rfl (by simpa [Expr.type?] using .mk ht.span ht.args) hi)
    · rename_i type length
      refine .bind (.required here fun t read => placed_typeName? type (inside.mem (.head _)) read) fun type ht => ?_
      refine .bind (places_buildExpr limit (depth + 1) length (inside.mem (by simp))) fun length hl => ?_
      exact .ok (placed_node reaches rfl (by simpa [Expr.type?] using ht) (by simpa [Expr.children] using hl))
    · refine .bind (places_buildExprs limit (depth + 1) _ inside) fun items hi => ?_
      exact .ok (placed_node reaches rfl (untyped rfl) hi)
    · -- lists and maps
      refine .bind (places_buildExprs limit (depth + 1) _ inside) fun items hi => ?_
      exact .ok (placed_node reaches rfl (untyped rfl) hi)
    · refine .bind (places_buildEntries limit (depth + 1) _ inside) fun entries he => ?_
      exact .ok (placed_node reaches rfl (untyped rfl) he)
    · -- names and literals
      exact .ok (placed_node reaches rfl (untyped rfl) (List.forall_mem_nil _))
    · refine .bind (places_literalOf here) fun value _ => ?_
      exact .ok (placed_node reaches rfl (untyped rfl) (List.forall_mem_nil _))
termination_by (sizeOf n, 0)

theorem places_buildExprs (limit depth : Nat) (ns : List Node) {c d : Cursor} (laid : Laid c ns d) :
    Places (Span.Between c d) (fun es => ∀ e ∈ es, e.Placed (Span.Between c d)) (buildExprs limit depth ns) := by
  cases ns with
  | nil =>
    unfold buildExprs
    exact .ok (List.forall_mem_nil _)
  | cons n ns =>
    unfold buildExprs
    refine .bind (places_buildExpr limit depth n (laid.mem (.head ns))) fun e he => ?_
    refine .bind (places_buildExprs limit depth ns laid.tail) fun es hes => ?_
    exact .ok (List.forall_mem_cons.2 ⟨he, hes⟩)
termination_by (sizeOf ns, 0)

theorem places_buildEntries (limit depth : Nat) (ns : List Node) {c d : Cursor} (laid : Laid c ns d) :
    Places (Span.Between c d) (fun es => ∀ e ∈ es.flatMap fun (k, v) => [k, v], e.Placed (Span.Between c d))
      (buildEntries limit depth ns) := by
  unfold buildEntries
  split
  · exact .ok (List.forall_mem_nil _)
  · rename_i r a b key value ns
    have entry : Laid c [key, value] d := (laid.mem (.head ns)).inner
    refine .bind (places_buildExpr limit depth key (entry.mem (by simp))) fun key hk => ?_
    refine .bind (places_buildExpr limit depth value (entry.mem (by simp))) fun value hv => ?_
    refine .bind (places_buildEntries limit depth ns laid.tail) fun entries he => ?_
    exact .ok (List.forall_mem_cons.2 ⟨hk, List.forall_mem_cons.2 ⟨hv, he⟩⟩)
  · exact .error (between_of_laid (laid.mem (.head _)))
termination_by (sizeOf ns, 0)

/-- A piece of an operation lies where its node does. -/
theorem places_buildPiece (limit depth : Nat) (n : Node) {c d : Cursor} (laid : Laid c [n] d) :
    Places (Span.Between c d) (Piece.Lies c d) (buildPiece limit depth n) := by
  have here := between_of_laid laid
  unfold buildPiece
  split
  · exact .map (places_buildExpr limit depth n laid) fun e he => he
  split
  · exact .ok ⟨here, fun t ht => by cases ht⟩
  · exact .ok ⟨here, fun t ht => by cases ht⟩
  · rename_i a b type _
    refine .map (.required here fun t read => placed_typeExpr? type laid.inner read) fun t ht => ⟨here, ?_⟩
    simpa [FrontOp.type?] using ht
  · -- what an operator holds lies within its own span
    rename_i a b name args _
    obtain ⟨before, inside, behind⟩ := laid.of_single
    refine .map ((places_buildExprs limit depth args inside.tail).mono (fun _ h => h.widen before behind) fun _ h => h)
      fun args ha => ⟨here, fun x hx => ?_⟩
    exact ⟨(ha x hx).span.within, (ha x hx).widen before behind⟩
  · exact .ok ⟨here, List.forall_mem_nil _⟩
  · rename_i a b position _
    obtain ⟨before, inside, behind⟩ := laid.of_single
    refine .map ((places_buildExpr limit depth position inside).mono (fun _ h => h.widen before behind) fun _ h => h)
      fun position hp => ⟨here, ?_⟩
    simpa [BackOp.children] using ⟨hp.span.within, hp.widen before behind⟩
  · exact .ok ⟨here, List.forall_mem_nil _⟩
  · exact .ok ⟨here, List.forall_mem_nil _⟩
  · split
    · exact .ok laid.reaches
    · exact .error here
termination_by (sizeOf n, 1)

theorem places_buildPieces (limit depth : Nat) (ns : List Node) {c d : Cursor} (laid : Laid c ns d) :
    Places (Span.Between c d) (Piece.Row c · d) (buildPieces limit depth ns) := by
  cases ns with
  | nil =>
    unfold buildPieces
    exact .ok (.nil laid.reaches)
  | cons n ns =>
    obtain ⟨m, first, rest⟩ := laid.split
    rw [buildPieces_cons]
    refine .bind ((places_buildPiece limit depth n first).mono (fun _ h => h.widen (.refl c) rest.reaches) fun _ h => h)
      fun piece hp => ?_
    have others := places_buildPieces limit depth ns rest
    refine .bind (others.mono (fun _ h => h.widen first.reaches (.refl d)) fun _ h => h) fun pieces row => ?_
    exact .ok (.cons hp row)
termination_by (sizeOf ns, 0)

end

/-! ## Statements -/

theorem places_declaredType {n : Node} (laid : Laid c [n] d) :
    Places (Span.Between c d) (fun type => ∀ t ∈ type, t.Placed (Span.Between c d)) (declaredType n) := by
  unfold declaredType
  split
  · exact .ok fun t ht => by cases ht
  · refine .map (.required (between_of_laid laid) fun t read => placed_typeExpr? n laid read) fun t placed => ?_
    simpa using placed

theorem places_buildDeclarator (limit : Nat) {n : Node} (laid : Laid c [n] d) :
    Places (Span.Between c d) (fun x => x.span.Between c d ∧ ∀ e ∈ x.init, e.Placed (Span.Between c d))
      (buildDeclarator limit n) := by
  unfold buildDeclarator
  split
  · rename_i r a b name
    exact .ok ⟨between_of_laid laid.inner, fun e he => by cases he⟩
  · rename_i r a b name init
    refine .bind (places_buildExpr limit 0 init (laid.inner.mem (by simp))) fun init hi => ?_
    exact .ok ⟨between_of_laid (laid.inner.mem (.head _)), by simpa using hi⟩
  · exact .error (between_of_laid laid)

theorem places_buildDeclarators (limit : Nat) {ns : List Node} (laid : Laid c ns d) :
    Places (Span.Between c d) (fun ds => ∀ x ∈ ds, x.span.Between c d ∧ ∀ e ∈ x.init, e.Placed (Span.Between c d))
      (buildDeclarators limit ns) := by
  unfold buildDeclarators
  induction ns with
  | nil => exact .ok (List.forall_mem_nil _)
  | cons n ns ih =>
    rw [List.mapM_cons]
    refine .bind (places_buildDeclarator limit (laid.mem (.head ns))) fun x hx => ?_
    refine .bind (ih laid.tail) fun ds hds => ?_
    exact .ok (List.forall_mem_cons.2 ⟨hx, hds⟩)

theorem places_loopVariable {n : Node} (laid : Laid c [n] d) :
    Places (Span.Between c d) (fun v => (∀ t ∈ v.1, t.Placed (Span.Between c d)) ∧ v.2.span.Between c d)
      (loopVariable n) := by
  obtain ⟨r, a, b, ns⟩ := n
  have inside := laid.inner
  unfold loopVariable Node.children
  dsimp only
  split
  · exact .ok ⟨fun t ht => (by cases ht), between_of_laid inside⟩
  · rename_i type name
    refine .bind (places_declaredType (inside.mem (.head _))) fun type ht => ?_
    exact .ok ⟨ht, between_of_laid (inside.mem (by simp))⟩
  · exact .error (between_of_laid laid)

/-- `P` holds of all spans in the parts of a counting loop. -/
structure LoopParts.Placed (P : Span → Prop) (parts : LoopParts) : Prop where
  init : ∀ s ∈ parts.init, s.Placed P
  cond : ∀ e ∈ parts.cond, e.Placed P
  update : ∀ e ∈ parts.update, e.Placed P
  body : ∀ s ∈ parts.body, s.Placed P

mutual

/-- A statement lies where its node does. -/
theorem places_buildStmt (limit : Nat) (n : Node) (laid : Laid c [n] d) :
    Places (Span.Between c d) (Stmt.Placed (Span.Between c d)) (buildStmt limit n) := by
  have here := between_of_laid laid
  match n, laid with
  | .mk rule a b ns, laid =>
    have inside := laid.inner
    unfold buildStmt
    dsimp only
    split
    · -- a block
      rename_i r a' b' body
      refine .bind (places_buildStmts limit body inside.inner) fun body hb => ?_
      exact .ok (Stmt.placed_of_parts rfl rfl (by simp [Stmt.exprs]) (by simpa [Stmt.children] using hb))
    · -- a branch, without and with its second body
      rename_i cond yes
      refine .bind (places_buildExpr limit 0 cond (inside.mem (.head _))) fun cond hc => ?_
      refine .bind (places_buildBody limit yes (inside.mem (by simp))) fun yes hy => ?_
      exact .ok (Stmt.placed_of_parts rfl rfl (by simpa [Stmt.exprs] using hc)
        (by simpa [Stmt.children] using hy))
    · rename_i cond yes no
      refine .bind (places_buildExpr limit 0 cond (inside.mem (.head _))) fun cond hc => ?_
      refine .bind (places_buildBody limit yes (inside.mem (by simp))) fun yes hy => ?_
      refine .bind (places_buildBody limit no (inside.mem (by simp))) fun no hn => ?_
      refine .ok (Stmt.placed_of_parts rfl rfl (by simpa [Stmt.exprs] using hc) fun x hx => ?_)
      exact (List.mem_append.1 hx).elim (hy x) (hn x)
    · -- the loops
      rename_i cond body
      refine .bind (places_buildExpr limit 0 cond (inside.mem (.head _))) fun cond hc => ?_
      refine .bind (places_buildBody limit body (inside.mem (by simp))) fun body hb => ?_
      exact .ok (Stmt.placed_of_parts rfl rfl (by simpa [Stmt.exprs] using hc)
        (by simpa [Stmt.children] using hb))
    · rename_i head items body
      refine .bind (places_buildExpr limit 0 items (inside.mem (by simp))) fun items hi => ?_
      refine .bind (places_buildBody limit body (inside.mem (by simp))) fun body hb => ?_
      refine .bind (places_loopVariable (inside.mem (.head _))) fun named hv => ?_
      exact .ok (.mk (by simpa [Stmt.spans] using hv.2) (by simpa [Stmt.type?] using hv.1)
        (by simpa [Stmt.exprs] using hi) (by simpa [Stmt.children] using hb))
    · refine .bind (places_buildLoop limit _ inside) fun parts hp => ?_
      refine .ok (Stmt.placed_of_parts rfl rfl (fun e he => ?_) fun x hx => ?_)
      · exact (List.mem_append.1 he).elim (fun h => hp.cond e (by simpa using h)) (hp.update e)
      · exact (List.mem_append.1 hx).elim (fun h => hp.init x (by simpa using h)) (hp.body x)
    · -- the statements without statements inside
      exact .ok (Stmt.placed_of_parts rfl rfl (by simp [Stmt.exprs]) (by simp [Stmt.children]))
    · refine .bind (places_buildExpr limit 0 _ inside) fun value hv => ?_
      exact .ok (Stmt.placed_of_parts rfl rfl (by simpa [Stmt.exprs] using hv) (by simp [Stmt.children]))
    · exact .ok (Stmt.placed_import here)
    · exact .ok (Stmt.placed_import here)
    · rename_i type declarators
      refine .bind (places_declaredType (inside.mem (.head _))) fun type ht => ?_
      refine .bind (places_buildDeclarators limit inside.tail) fun ds hds => ?_
      refine .ok (.mk (fun x hx => ?_) (by simpa [Stmt.type?] using ht) (fun e he => ?_) (by simp [Stmt.children]))
      · obtain ⟨declarator, hd, rfl⟩ := List.mem_map.1 hx
        exact (hds declarator hd).1
      · obtain ⟨declarator, hd, he⟩ := List.mem_filterMap.1 he
        exact (hds declarator hd).2 e he
    · refine .bind (places_buildExpr limit 0 _ laid) fun e he => ?_
      exact .ok (Stmt.placed_of_parts rfl rfl (by simpa [Stmt.exprs] using he) (by simp [Stmt.children]))
termination_by (sizeOf n, 0)

theorem places_buildStmts (limit : Nat) (ns : List Node) (laid : Laid c ns d) :
    Places (Span.Between c d) (fun ss => ∀ s ∈ ss, s.Placed (Span.Between c d)) (buildStmts limit ns) := by
  cases ns with
  | nil =>
    unfold buildStmts
    exact .ok (List.forall_mem_nil _)
  | cons n ns =>
    unfold buildStmts
    refine .bind (places_buildStmt limit n (laid.mem (.head ns))) fun s hs => ?_
    refine .bind (places_buildStmts limit ns laid.tail) fun ss hss => ?_
    exact .ok (List.forall_mem_cons.2 ⟨hs, hss⟩)
termination_by (sizeOf ns, 0)

theorem places_buildBody (limit : Nat) (n : Node) (laid : Laid c [n] d) :
    Places (Span.Between c d) (fun ss => ∀ s ∈ ss, s.Placed (Span.Between c d)) (buildBody limit n) := by
  have here := between_of_laid laid
  unfold buildBody
  split
  · exact places_buildStmts limit _ laid.inner.inner.inner
  · refine .bind (places_buildStmt limit _ laid.inner) fun s hs => ?_
    exact .ok (List.forall_mem_singleton.2 hs)
  · exact .error here
termination_by (sizeOf n, 0)

theorem places_buildLoop (limit : Nat) (ns : List Node) (laid : Laid c ns d) :
    Places (Span.Between c d) (LoopParts.Placed (Span.Between c d)) (buildLoop limit ns) := by
  unfold buildLoop
  split
  · -- the parts of a loop are collected from its nodes, from the back
    exact .ok (by constructor <;> simp)
  · rename_i a b n ns
    refine .bind (places_buildStmt limit n (laid.mem (.head ns)).inner) fun init hi => ?_
    refine .bind (places_buildLoop limit ns laid.tail) fun parts hp => ?_
    exact .ok { hp with init := by simpa using hi }
  · rename_i a b n ns
    refine .bind (places_buildExpr limit 0 n (laid.mem (.head ns)).inner) fun cond hc => ?_
    refine .bind (places_buildLoop limit ns laid.tail) fun parts hp => ?_
    exact .ok { hp with cond := by simpa using hc }
  · rename_i a b update ns
    refine .bind (places_buildExprs limit 0 update (laid.mem (.head ns)).inner) fun update hu => ?_
    refine .bind (places_buildLoop limit ns laid.tail) fun parts hp => ?_
    exact .ok { hp with update := hu }
  · rename_i n ns _ _ _
    refine .bind (places_buildBody limit n (laid.mem (.head ns))) fun body hb => ?_
    refine .bind (places_buildLoop limit ns laid.tail) fun parts hp => ?_
    exact .ok { hp with body := hb }
termination_by (sizeOf ns, 0)

end

/-- All spans of a parsed source and that of an error can be used to cut the source. -/
theorem places_parseWithLimit (limit : Nat) (source : String) :
    Places (Span.Usable source) (fun body => ∀ s ∈ body, s.Placed (Span.Usable source))
      (parseWithLimit limit source) := by
  unfold parseWithLimit
  split
  · rename_i log refused
    obtain ⟨d, reaches, offset⟩ := Node.reaches_ofSource refused
    have place : (Span.point log.offset).Between (.ofList source.toList) d :=
      ⟨d, d, reaches, .refl d, .refl d, by rw [offset]; rfl⟩
    exact .error place.usable
  · rename_i r a b r' a' b' statements tree
    obtain ⟨d, laid⟩ := Node.laid_ofSource tree
    exact (places_buildStmts limit statements laid.inner.inner).mono (fun _ h => h.usable)
      fun body hb s hs => (hb s hs).mono fun _ h => h.usable
  · rename_i n _ tree
    obtain ⟨d, laid⟩ := Node.laid_ofSource tree
    exact .error (between_of_laid laid).usable

end HostExpr.Syntax
