import HostExpr.Typing.Tree

/-!
# The parts of typed trees

All expressions in a tree, whatever they stand in. What analysis makes sure of, and what a run relies on, is said of
one expression at a time and of all parts of a program. The call sites of a tree are those of its parts. Beside them
stand the names that a tree declares.
-/

namespace HostExpr

namespace Typed

namespace Expr

/-- The call site of the expression itself, with the member it accesses. -/
def access? : Expr → Option (Nat × Member)
  | input _ name site | property _ _ name site => some (site, .property name)
  | methodCall _ _ name args site => some (site, .method name args.length)
  | index _ _ _ site => some (site, .index)
  | _ => none

/-- Two expressions access members through different call sites, if both access one. -/
def SitesDiffer (e e' : Expr) : Prop := ∀ x ∈ e.access?, ∀ y ∈ e'.access?, x.1 ≠ y.1

theorem SitesDiffer.symm {e e' : Expr} (h : e.SitesDiffer e') : e'.SitesDiffer e :=
  fun x hx y hy same => h y hy x hx same.symm

/-- If no two nodes share a call site, each site is one of a single member. -/
theorem single_of_distinct {nodes : List Expr} (h : nodes.Pairwise SitesDiffer) : ∀ e ∈ nodes, ∀ e' ∈ nodes,
    ∀ x ∈ e.access?, ∀ y ∈ e'.access?, x.1 = y.1 → x.2 = y.2 := by
  intro e he e' he' x hx y hy same
  obtain ⟨i, hi, rfl⟩ := List.mem_iff_getElem.1 he
  obtain ⟨j, hj, rfl⟩ := List.mem_iff_getElem.1 he'
  have differ := List.pairwise_iff_getElem.1 h
  rcases Nat.lt_trichotomy i j with before | rfl | behind
  · exact absurd same (differ i j hi hj before x hx y hy)
  · rw [Option.some.inj (hx.symm.trans hy)]
  · exact absurd same.symm (differ j i hj hi behind y hy x hx)

mutual

/-- The expressions within an expression. -/
def inner : Expr → List Expr
  | constant .. | declared .. | input .. | this _ | classRef .. | staticField .. => []
  | property _ e _ _ | unary _ _ e | step _ _ e | cast _ _ e | newSized _ _ e => e :: inner e
  | methodCall _ e _ args _ => (e :: inner e) ++ partsAll args
  | index _ a b _ | convert _ a b | assign _ a _ b _ | arith _ _ a b | logic _ _ a b | compare _ _ a b =>
    (a :: inner a) ++ (b :: inner b)
  | conditional _ c a b => (c :: inner c) ++ (a :: inner a) ++ (b :: inner b)
  | functionCall _ _ args | construct _ _ args _ | newArray _ _ args | inlineList _ args => partsAll args
  | inlineMap _ entries => partsEntries entries

/-- The expressions in a row of expressions. -/
def partsAll : List Expr → List Expr
  | [] => []
  | e :: es => (e :: inner e) ++ partsAll es

/-- The expressions in the entries of a map. -/
def partsEntries : List (Expr × Expr) → List Expr
  | [] => []
  | (k, v) :: es => (k :: inner k) ++ (v :: inner v) ++ partsEntries es

end

/-- The expressions in an expression, itself first. -/
def parts (e : Expr) : List Expr := e :: e.inner

theorem self_mem_parts (e : Expr) : e ∈ e.parts := List.mem_cons_self

@[simp]
theorem partsAll_cons (e : Expr) (es : List Expr) : partsAll (e :: es) = e.parts ++ partsAll es := by
  rw [partsAll, parts]

/-- The parts of expressions in a row are those of each of them. -/
theorem mem_partsAll {es : List Expr} {n : Expr} : n ∈ partsAll es ↔ ∃ e ∈ es, n ∈ e.parts := by
  induction es with
  | nil => simp [partsAll]
  | cons e es ih => simp [ih]

@[simp]
theorem partsEntries_cons (k v : Expr) (es : List (Expr × Expr)) :
    partsEntries ((k, v) :: es) = k.parts ++ v.parts ++ partsEntries es := by
  rw [partsEntries, parts, parts]

mutual

/-- The call sites of an expression are those of its parts. -/
theorem accesses_eq : ∀ e : Expr, e.accesses = e.parts.filterMap access?
  | constant .. | declared .. | input .. | this _ | classRef .. | staticField .. => rfl
  | property _ e _ _ | unary _ _ e | step _ _ e | cast _ _ e | newSized _ _ e => by
    rw [accesses, accesses_eq e]
    rfl
  | methodCall _ e _ args _ => by
    rw [accesses, parts, inner, List.filterMap_cons, List.filterMap_append, accesses_eq e, accessesAll_eq args]
    rfl
  | index _ a b _ | convert _ a b | assign _ a _ b _ | arith _ _ a b | logic _ _ a b | compare _ _ a b => by
    rw [accesses, parts, inner, List.filterMap_cons, List.filterMap_append, accesses_eq a, accesses_eq b]
    rfl
  | conditional _ c a b => by
    rw [accesses, parts, inner, List.filterMap_cons, List.filterMap_append, List.filterMap_append, accesses_eq c,
      accesses_eq a, accesses_eq b]
    rfl
  | functionCall _ _ args | construct _ _ args _ | newArray _ _ args | inlineList _ args => by
    rw [accesses, accessesAll_eq args]
    rfl
  | inlineMap _ entries => by
    rw [accesses, accessesEntries_eq entries]
    rfl

theorem accessesAll_eq : ∀ es : List Expr, accessesAll es = (partsAll es).filterMap access?
  | [] => rfl
  | e :: es => by
    rw [accessesAll, partsAll_cons, List.filterMap_append, accesses_eq e, accessesAll_eq es]

theorem accessesEntries_eq : ∀ es : List (Expr × Expr), accessesEntries es = (partsEntries es).filterMap access?
  | [] => rfl
  | (k, v) :: es => by
    rw [accessesEntries, partsEntries_cons, List.filterMap_append, List.filterMap_append, accesses_eq k, accesses_eq v,
      accessesEntries_eq es]

end

end Expr

namespace Stmt

mutual

/-- The expressions in a statement. -/
def parts : Stmt → List Expr
  | expr e => e.parts
  | declare _ _ _ init _ | returns _ init => (init.map Expr.parts).getD []
  | block _ body => partsAll body
  | branch _ cond thenBody elseBody =>
    cond.parts ++ partsAll thenBody ++
      match elseBody with
      | some body => partsAll body
      | none => []
  | whileLoop _ cond body => cond.parts ++ partsAll body
  | forLoop _ init cond update body =>
    let first :=
      match init with
      | some s => parts s
      | none => []
    first ++ (cond.map Expr.parts).getD [] ++ Expr.partsAll update ++ partsAll body
  | forEach _ _ _ items body => items.parts ++ partsAll body
  | nop _ => []

/-- The expressions in a row of statements. -/
def partsAll : List Stmt → List Expr
  | [] => []
  | s :: ss => s.parts ++ partsAll ss

end

/-- The parts of two rows one after the other. -/
theorem partsAll_append (ss ss' : List Stmt) : partsAll (ss ++ ss') = partsAll ss ++ partsAll ss' := by
  induction ss with
  | nil => rfl
  | cons s ss ih => rw [List.cons_append, partsAll, partsAll, ih, List.append_assoc]

/-- The parts of statements in a row are those of each of them. -/
theorem mem_partsAll {ss : List Stmt} {n : Expr} : n ∈ partsAll ss ↔ ∃ s ∈ ss, n ∈ s.parts := by
  induction ss with
  | nil => simp [partsAll]
  | cons s ss ih => simp [partsAll, ih]

/-- The call sites of an expression that may be missing. -/
private theorem accesses?_eq (e : Option Expr) :
    (e.map Expr.accesses).getD [] = ((e.map Expr.parts).getD []).filterMap Expr.access? := by
  cases e with
  | none => rfl
  | some e => exact e.accesses_eq

mutual

/-- The call sites of a statement are those of its parts. -/
theorem accesses_eq (s : Stmt) : s.accesses = s.parts.filterMap Expr.access? := by
  cases s with
  | expr e => exact e.accesses_eq
  | declare _ _ _ init _ => exact accesses?_eq init
  | returns _ value => exact accesses?_eq value
  | block _ body => exact accessesAll_eq body
  | branch _ cond thenBody elseBody =>
    cases elseBody with
    | none => simp [accesses, parts, cond.accesses_eq, accessesAll_eq thenBody]
    | some body => simp [accesses, parts, cond.accesses_eq, accessesAll_eq thenBody, accessesAll_eq body]
  | whileLoop _ cond body =>
    rw [accesses, parts, List.filterMap_append, cond.accesses_eq, accessesAll_eq body]
  | forLoop _ init cond update body =>
    cases init with
    | none => simp [accesses, parts, accesses?_eq, Expr.accessesAll_eq, accessesAll_eq body]
    | some s => simp [accesses, parts, accesses?_eq, Expr.accessesAll_eq, accessesAll_eq body, accesses_eq s]
  | forEach _ _ _ items body =>
    rw [accesses, parts, List.filterMap_append, items.accesses_eq, accessesAll_eq body]
  | nop _ => rfl
termination_by sizeOf s

theorem accessesAll_eq (ss : List Stmt) : accessesAll ss = (partsAll ss).filterMap Expr.access? := by
  cases ss with
  | nil => rfl
  | cons s ss => rw [accessesAll, partsAll, List.filterMap_append, accesses_eq s, accessesAll_eq ss]
termination_by sizeOf ss

end

/-! ## Declared names -/

mutual

/-- The names that a statement declares. -/
def declaredNames : Stmt → List String
  | declare _ name _ _ _ => [name]
  | block _ body | whileLoop _ _ body => declaredNamesAll body
  | branch _ _ thenBody elseBody =>
    declaredNamesAll thenBody ++
      match elseBody with
      | some body => declaredNamesAll body
      | none => []
  | forLoop _ init _ _ body =>
    let first :=
      match init with
      | some s => declaredNames s
      | none => []
    first ++ declaredNamesAll body
  | forEach _ name _ _ body => name :: declaredNamesAll body
  | expr _ | returns _ _ | nop _ => []

/-- The names that statements in a row declare. -/
def declaredNamesAll : List Stmt → List String
  | [] => []
  | s :: ss => s.declaredNames ++ declaredNamesAll ss

end

/-- The names that two rows declare, one after the other. -/
theorem declaredNamesAll_append (ss ss' : List Stmt) :
    declaredNamesAll (ss ++ ss') = declaredNamesAll ss ++ declaredNamesAll ss' := by
  induction ss with
  | nil => rfl
  | cons s ss ih => rw [List.cons_append, declaredNamesAll, declaredNamesAll, ih, List.append_assoc]

end Stmt

/-- What a list gives for a key is what it has under the key, if it has no two values under one key. -/
private theorem lookup_of_mem {β : Type} {l : List (Nat × β)} {k : Nat} {v : β}
    (single : ∀ x ∈ l, ∀ y ∈ l, x.1 = y.1 → x.2 = y.2) (h : (k, v) ∈ l) : l.lookup k = some v := by
  induction l with
  | nil => cases h
  | cons x rest ih =>
    obtain ⟨k', v'⟩ := x
    by_cases hk : k = k'
    · have : v' = v := single (k', v') List.mem_cons_self (k, v) h hk.symm
      rw [hk, this, List.lookup_cons_self]
    · have : (k, v) ∈ rest := by
        rcases List.mem_cons.1 h with h | h
        · exact absurd (congrArg Prod.fst h) hk
        · exact h
      rw [List.lookup_cons, beq_false_of_ne hk]
      exact ih (fun x hx y hy => single x (List.mem_cons_of_mem _ hx) y (List.mem_cons_of_mem _ hy)) this

/-- The member of a site is the one that a part of the program accesses through it, if no site has two. -/
theorem Program.memberAt_eq {p : Program} {e : Expr} {site : Nat} {m : Member}
    (single : ∀ e ∈ Stmt.partsAll p.body, ∀ e' ∈ Stmt.partsAll p.body,
      ∀ x ∈ e.access?, ∀ y ∈ e'.access?, x.1 = y.1 → x.2 = y.2)
    (he : e ∈ Stmt.partsAll p.body) (ha : e.access? = some (site, m)) : p.memberAt site = m := by
  have found : (Stmt.accessesAll p.body).lookup site = some m := by
    rw [Stmt.accessesAll_eq]
    apply lookup_of_mem
    · intro x hx y hy
      obtain ⟨e₁, he₁, hx⟩ := List.mem_filterMap.1 hx
      obtain ⟨e₂, he₂, hy⟩ := List.mem_filterMap.1 hy
      exact single e₁ he₁ e₂ he₂ x hx y hy
    · exact List.mem_filterMap.2 ⟨e, he, ha⟩
  rw [memberAt, found]
  rfl

end Typed

/-! ## Parts of parts

What is part of a part of a tree is part of the tree. So what is known of all parts of a program is known of the
operands of each of them. -/

namespace Typed

namespace Expr

/-- What is among the parts of an expression is among them with all its own parts, if that holds of what is inside. -/
private theorem parts_subset_of_inner {x e : Expr} (h : e ∈ x.inner → e.parts ⊆ x.inner) (he : e ∈ x.parts) :
    e.parts ⊆ x.parts := by
  rcases List.mem_cons.1 he with rfl | he
  · exact List.Subset.refl _
  · exact List.Subset.trans (h he) (List.subset_cons_self _ _)

/-- The same for two rows of parts. -/
private theorem parts_subset_append {e : Expr} {xs ys : List Expr} (hx : e ∈ xs → e.parts ⊆ xs)
    (hy : e ∈ ys → e.parts ⊆ ys) (h : e ∈ xs ++ ys) : e.parts ⊆ xs ++ ys := by
  rcases List.mem_append.1 h with h | h
  · exact List.Subset.trans (hx h) (List.subset_append_left _ _)
  · exact List.Subset.trans (hy h) (List.subset_append_right _ _)

mutual

theorem parts_subset_inner {e : Expr} : ∀ x : Expr, e ∈ x.inner → e.parts ⊆ x.inner
  | constant .. | declared .. | input .. | this _ | classRef .. | staticField .. => fun h => by cases h
  | property _ x _ _ | unary _ _ x | step _ _ x | cast _ _ x | newSized _ _ x =>
    parts_subset_of_inner (parts_subset_inner x)
  | methodCall _ x _ args _ =>
    parts_subset_append (parts_subset_of_inner (parts_subset_inner x)) (parts_subset_all args)
  | index _ a b _ | convert _ a b | assign _ a _ b _ | arith _ _ a b | logic _ _ a b | compare _ _ a b =>
    parts_subset_append (parts_subset_of_inner (parts_subset_inner a)) (parts_subset_of_inner (parts_subset_inner b))
  | conditional _ c a b =>
    parts_subset_append
      (parts_subset_append (parts_subset_of_inner (parts_subset_inner c)) (parts_subset_of_inner (parts_subset_inner a)))
      (parts_subset_of_inner (parts_subset_inner b))
  | functionCall _ _ args | construct _ _ args _ | newArray _ _ args | inlineList _ args => parts_subset_all args
  | inlineMap _ entries => parts_subset_entries entries

theorem parts_subset_all {e : Expr} : ∀ es : List Expr, e ∈ partsAll es → e.parts ⊆ partsAll es
  | [] => fun h => by cases h
  | x :: xs => parts_subset_append (parts_subset_of_inner (parts_subset_inner x)) (parts_subset_all xs)

theorem parts_subset_entries {e : Expr} : ∀ es : List (Expr × Expr), e ∈ partsEntries es → e.parts ⊆ partsEntries es
  | [] => fun h => by cases h
  | (k, v) :: es =>
    parts_subset_append
      (parts_subset_append (parts_subset_of_inner (parts_subset_inner k)) (parts_subset_of_inner (parts_subset_inner v)))
      (parts_subset_entries es)

end

/-- The parts of a part are parts. -/
theorem parts_subset {x e : Expr} (h : e ∈ x.parts) : e.parts ⊆ x.parts := parts_subset_of_inner (parts_subset_inner x) h

end Expr

namespace Stmt

private theorem parts_subset_optional {e : Expr} (x : Option Expr) (h : e ∈ (x.map Expr.parts).getD []) :
    e.parts ⊆ (x.map Expr.parts).getD [] := by
  cases x with
  | none => cases h
  | some x => exact Expr.parts_subset h

mutual

/-- The parts of a part of a statement are parts of it. -/
theorem parts_subset {e : Expr} (s : Stmt) (h : e ∈ s.parts) : e.parts ⊆ s.parts := by
  cases s with
  | expr x => exact Expr.parts_subset h
  | declare _ _ _ init _ => exact parts_subset_optional init h
  | returns _ value => exact parts_subset_optional value h
  | block _ body => exact parts_subset_all body h
  | branch _ cond thenBody elseBody =>
    have head : e ∈ cond.parts ++ partsAll thenBody → e.parts ⊆ cond.parts ++ partsAll thenBody :=
      Expr.parts_subset_append Expr.parts_subset (parts_subset_all thenBody)
    cases elseBody with
    | none =>
      simp only [parts, List.append_nil] at h ⊢
      exact head h
    | some body => exact Expr.parts_subset_append head (parts_subset_all body) h
  | whileLoop _ cond body => exact Expr.parts_subset_append Expr.parts_subset (parts_subset_all body) h
  | forLoop _ init cond update body =>
    have rest {xs : List Expr} (hx : e ∈ xs → e.parts ⊆ xs) :
        e ∈ xs ++ (cond.map Expr.parts).getD [] ++ Expr.partsAll update ++ partsAll body →
          e.parts ⊆ xs ++ (cond.map Expr.parts).getD [] ++ Expr.partsAll update ++ partsAll body :=
      Expr.parts_subset_append (Expr.parts_subset_append (Expr.parts_subset_append hx (parts_subset_optional cond))
        (Expr.parts_subset_all update)) (parts_subset_all body)
    cases init with
    | none =>
      simp only [parts] at h ⊢
      exact rest (fun h => by cases h) h
    | some s =>
      simp only [parts] at h ⊢
      exact rest (parts_subset s) h
  | forEach _ _ _ items body => exact Expr.parts_subset_append Expr.parts_subset (parts_subset_all body) h
  | nop _ => cases h
termination_by sizeOf s

theorem parts_subset_all {e : Expr} (ss : List Stmt) (h : e ∈ partsAll ss) : e.parts ⊆ partsAll ss := by
  cases ss with
  | nil => cases h
  | cons s ss => exact Expr.parts_subset_append (parts_subset s) (parts_subset_all ss) h
termination_by sizeOf ss

end

end Stmt

end Typed

end HostExpr
