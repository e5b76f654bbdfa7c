import HostExpr.Typing.Tree

/-!
# The height of typed trees

The nodes of a typed tree, the nodes right below each of them, and how many nodes stand one below the other at most.
Nodes that are one below the other are a path, and what stands below a path is no higher than what it leaves of the
height: `IsPath.height_add_length_le`.
-/

namespace HostExpr

namespace Typed

/-! ## Height -/

namespace Expr

/-- The expressions right below an expression. -/
def children : Expr → List Expr
  | constant .. | declared .. | input .. | this _ | classRef .. | staticField .. => []
  | property _ e _ _ | unary _ _ e | step _ _ e | cast _ _ e | newSized _ _ e => [e]
  | methodCall _ e _ args _ => e :: args
  | index _ a b _ | convert _ a b | assign _ a _ b _ | arith _ _ a b | logic _ _ a b | compare _ _ a b => [a, b]
  | conditional _ c a b => [c, a, b]
  | functionCall _ _ args | construct _ _ args _ | newArray _ _ args | inlineList _ args => args
  | inlineMap _ entries => entries.flatMap fun (k, v) => [k, v]

mutual

/-- How many expressions stand one below the other at most. -/
def height : Expr → Nat
  | constant .. | declared .. | input .. | this _ | classRef .. | staticField .. => 1
  | property _ e _ _ | unary _ _ e | step _ _ e | cast _ _ e | newSized _ _ e => height e + 1
  | methodCall _ e _ args _ => max (height e) (heightAll args) + 1
  | index _ a b _ | convert _ a b | assign _ a _ b _ | arith _ _ a b | logic _ _ a b | compare _ _ a b =>
    max (height a) (height b) + 1
  | conditional _ c a b => max (height c) (max (height a) (height b)) + 1
  | functionCall _ _ args | construct _ _ args _ | newArray _ _ args | inlineList _ args => heightAll args + 1
  | inlineMap _ entries => heightEntries entries + 1

/-- The height of the highest of several expressions. -/
def heightAll : List Expr → Nat
  | [] => 0
  | e :: es => max (height e) (heightAll es)

/-- The height of the highest key or value of several entries. -/
def heightEntries : List (Expr × Expr) → Nat
  | [] => 0
  | (k, v) :: es => max (max (height k) (height v)) (heightEntries es)

end

theorem height_le_heightAll {e : Expr} {es : List Expr} (h : e ∈ es) : e.height ≤ heightAll es := by
  induction es with
  | nil => cases h
  | cons e' es ih =>
    rw [heightAll]
    rcases List.mem_cons.1 h with rfl | h
    · exact Nat.le_max_left ..
    · exact Nat.le_trans (ih h) (Nat.le_max_right ..)

theorem height_le_heightEntries {e : Expr} {entries : List (Expr × Expr)}
    (h : e ∈ entries.flatMap fun (k, v) => [k, v]) : e.height ≤ heightEntries entries := by
  induction entries with
  | nil => cases h
  | cons entry entries ih =>
    obtain ⟨k, v⟩ := entry
    rw [heightEntries]
    rcases List.mem_append.1 h with h | h
    · simp only [List.mem_cons, List.not_mem_nil, or_false] at h
      rcases h with rfl | rfl
      all_goals omega
    · exact Nat.le_trans (ih h) (Nat.le_max_right ..)

theorem height_pos (e : Expr) : 0 < e.height := by
  cases e <;> simp [height]

/-- What stands below an expression is less high. -/
theorem height_lt_of_mem_children {e e' : Expr} (h : e' ∈ e.children) : e'.height < e.height := by
  cases e with
  | constant | declared | input | this | classRef | staticField => cases h
  | property | unary | step | cast | newSized =>
    rw [height, List.mem_singleton.1 h]
    exact Nat.lt_succ_self _
  | methodCall i receiver name args site =>
    rw [height]
    rcases List.mem_cons.1 h with rfl | h
    · omega
    · have := height_le_heightAll h
      omega
  | index | convert | assign | arith | logic | compare =>
    simp only [children, List.mem_cons, List.not_mem_nil, or_false] at h
    rw [height]
    rcases h with rfl | rfl
    all_goals omega
  | conditional =>
    simp only [children, List.mem_cons, List.not_mem_nil, or_false] at h
    rw [height]
    rcases h with rfl | rfl | rfl
    all_goals omega
  | functionCall | construct | newArray | inlineList =>
    rw [height]
    exact Nat.lt_succ_of_le (height_le_heightAll h)
  | inlineMap =>
    rw [height]
    exact Nat.lt_succ_of_le (height_le_heightEntries h)

end Expr

/-- A node of a typed tree. A statement that is an expression is one node. -/
inductive TreeNode
  | expr (e : Expr)
  | stmt (s : Stmt)

/-- The nodes right below a statement. -/
def Stmt.children : Stmt → List TreeNode
  | expr e => e.children.map .expr
  | declare _ _ _ init _ | returns _ init => init.toList.map .expr
  | block _ body => body.map .stmt
  | branch _ cond thenBody elseBody => .expr cond :: (thenBody ++ elseBody.getD []).map .stmt
  | whileLoop _ cond body => .expr cond :: body.map .stmt
  | forLoop _ init cond update body => (cond.toList ++ update).map .expr ++ (init.toList ++ body).map .stmt
  | forEach _ _ _ items body => .expr items :: body.map .stmt
  | nop _ => []

namespace Stmt

mutual

/-- How many nodes stand one below the other at most, from a statement on. -/
def height : Stmt → Nat
  | expr e => e.height
  | declare _ _ _ init _ | returns _ init => Expr.heightAll init.toList + 1
  | block _ body => heightAll body + 1
  | branch _ cond thenBody elseBody =>
    max cond.height (max (heightAll thenBody) (heightAll? elseBody)) + 1
  | whileLoop _ cond body => max cond.height (heightAll body) + 1
  | forLoop _ init cond update body =>
    max (max (Expr.heightAll cond.toList) (Expr.heightAll update)) (max (height? init) (heightAll body)) + 1
  | forEach _ _ _ items body => max items.height (heightAll body) + 1
  | nop _ => 1

/-- The height of the highest of several statements. -/
def heightAll : List Stmt → Nat
  | [] => 0
  | s :: ss => max (height s) (heightAll ss)

/-- The height of a statement that may be missing. -/
def height? : Option Stmt → Nat
  | some s => height s
  | none => 0

/-- The height of the highest of several statements that may be missing. -/
def heightAll? : Option (List Stmt) → Nat
  | some ss => heightAll ss
  | none => 0

end

theorem height_le_heightAll {s : Stmt} {ss : List Stmt} (h : s ∈ ss) : s.height ≤ heightAll ss := by
  induction ss with
  | nil => cases h
  | cons s' ss ih =>
    rw [heightAll]
    rcases List.mem_cons.1 h with rfl | h
    · exact Nat.le_max_left ..
    · exact Nat.le_trans (ih h) (Nat.le_max_right ..)

theorem height_pos (s : Stmt) : 0 < s.height := by
  cases s with
  | expr e =>
    rw [height]
    exact e.height_pos
  | _ =>
    rw [height]
    exact Nat.succ_pos _

end Stmt

namespace TreeNode

/-- The nodes right below a node. -/
def children : TreeNode → List TreeNode
  | expr e => e.children.map .expr
  | stmt s => s.children

/-- How many nodes stand one below the other at most, from a node on. -/
def height : TreeNode → Nat
  | expr e => e.height
  | stmt s => s.height

theorem height_pos (n : TreeNode) : 0 < n.height := by
  cases n with
  | expr e => exact e.height_pos
  | stmt s => exact s.height_pos

/-- The nodes for expressions are no higher than a bound of these. -/
theorem height_le_of_mem_map {es : List Expr} {n : TreeNode} (h : n ∈ es.map expr) : n.height ≤ Expr.heightAll es := by
  obtain ⟨e, he, rfl⟩ := List.mem_map.1 h
  exact Expr.height_le_heightAll he

theorem height_le_of_mem_map_stmt {ss : List Stmt} {n : TreeNode} (h : n ∈ ss.map stmt) :
    n.height ≤ Stmt.heightAll ss := by
  obtain ⟨s, hs, rfl⟩ := List.mem_map.1 h
  exact Stmt.height_le_heightAll hs

/-- What stands below a node is less high. -/
theorem height_lt_of_mem_children {n m : TreeNode} (h : m ∈ n.children) : m.height < n.height := by
  have below (e : Expr) (h : m ∈ e.children.map expr) : m.height < e.height := by
    obtain ⟨e', he, rfl⟩ := List.mem_map.1 h
    exact Expr.height_lt_of_mem_children he
  cases n with
  | expr e => exact below e h
  | stmt s =>
    show m.height < s.height
    cases s with
    | expr e =>
      rw [Stmt.height]
      exact below e h
    | declare | returns =>
      rw [Stmt.height]
      exact Nat.lt_succ_of_le (height_le_of_mem_map h)
    | block =>
      rw [Stmt.height]
      exact Nat.lt_succ_of_le (height_le_of_mem_map_stmt h)
    | branch i cond thenBody elseBody =>
      rw [Stmt.height]
      rcases List.mem_cons.1 h with rfl | h
      · exact Nat.lt_succ_of_le (Nat.le_max_left ..)
      · rw [List.map_append, List.mem_append] at h
        rcases h with h | h
        · have := height_le_of_mem_map_stmt h
          omega
        · cases elseBody with
          | none => cases h
          | some body =>
            rw [Stmt.heightAll?]
            have lower : m.height ≤ Stmt.heightAll body := height_le_of_mem_map_stmt h
            omega
    | whileLoop | forEach =>
      rw [Stmt.height]
      rcases List.mem_cons.1 h with rfl | h
      · exact Nat.lt_succ_of_le (Nat.le_max_left ..)
      · have := height_le_of_mem_map_stmt h
        omega
    | forLoop i init cond update body =>
      rw [Stmt.height]
      rcases List.mem_append.1 h with h | h
      · rw [List.map_append, List.mem_append] at h
        rcases h with h | h
        all_goals
          have := height_le_of_mem_map h
          omega
      · rw [List.map_append, List.mem_append] at h
        rcases h with h | h
        · cases init with
          | none => cases h
          | some s =>
            rw [List.mem_singleton.1 h, Stmt.height?]
            show s.height < _
            omega
        · have := height_le_of_mem_map_stmt h
          omega
    | nop => cases h

end TreeNode

/-! ## Paths -/

/-- The nodes that come next below open nodes, the innermost of which is first. -/
def below (roots : List TreeNode) : List TreeNode → List TreeNode
  | [] => roots
  | n :: _ => n.children

/-- Each of the nodes is right below the one behind it, and the last one is a root. -/
def IsPath (roots : List TreeNode) : List TreeNode → Prop
  | [] => True
  | n :: nodes => n ∈ below roots nodes ∧ IsPath roots nodes

/-- The nodes of a path that are still to come are below the height that is left. -/
theorem IsPath.height_add_length_le {roots : List TreeNode} {limit : Nat} (high : ∀ n ∈ roots, n.height ≤ limit)
    {nodes : List TreeNode} (path : IsPath roots nodes) : ∀ n ∈ below roots nodes, n.height + nodes.length ≤ limit := by
  induction nodes with
  | nil => exact high
  | cons m nodes ih =>
    intro n hn
    have lower := TreeNode.height_lt_of_mem_children hn
    have := ih path.2 m path.1
    rw [List.length_cons]
    omega

/-- The nodes of a program's statements. -/
def Program.roots (p : Program) : List TreeNode := p.body.map .stmt

/-- How many nodes of a program stand one below the other at most. -/
def Program.height (p : Program) : Nat := Stmt.heightAll p.body

end Typed

end HostExpr
