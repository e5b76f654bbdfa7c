import Mathlib.Control.Monad.Basic
import HostExpr.Proofs.Engine.Compile
import HostExpr.Proofs.Observe.Erasure
import HostExpr.Proofs.Scope.Agreement

/-!
# The depth of a run is its nesting

The nodes that are open at any moment of a run are a path in the tree of the program, and the depth is never more than
how many they are. It does not depend on how often loops have run: each node gives back the depth that it was given,
whatever comes of it. So a program that is no higher than the limit is never stopped for its depth.
-/

namespace HostExpr

open Typed

/-- The open nodes are a path from a root, the depth is no more than how many they are, and it is within the limit. -/
structure Standing.Nested (roots : List TreeNode) (maxDepth : Nat) (m : Standing) : Prop where
  path : IsPath roots m.nodes
  depth_le_nodes : m.depth ≤ m.nodes.length
  depth_le_limit : m.depth ≤ maxDepth

/-- Where the run is. -/
def Observed.standing (o : Observed) : Standing := ⟨o.nodes, o.state.depth⟩

/-- Where the run is and wherever it was, the depth is its nesting. -/
structure Observed.Nested (roots : List TreeNode) (maxDepth : Nat) (o : Observed) : Prop where
  now : o.standing.Nested roots maxDepth
  before : ∀ m ∈ o.standings, m.Nested roots maxDepth

/-- What has come of a part of a run: the run is back where it was, and all the time the depth was its nesting. It was
stopped for its depth only if the roots are too high. -/
structure Returns {α : Type} (roots : List TreeNode) (maxDepth : Nat) (o : Observed) (r : Except Stop α × Observed) :
    Prop where
  standing : r.2.standing = o.standing
  nested : r.2.Nested roots maxDepth
  low : (∀ n ∈ roots, n.height ≤ maxDepth) → ∀ depth limit, r.1 ≠ .error (.stackOverflow depth limit)

namespace Observed.Nested

variable {roots : List TreeNode} {maxDepth : Nat} {o : Observed}

theorem start (s : Running) (depth : s.depth = 0) : (Observed.start s).Nested roots maxDepth where
  now := ⟨trivial, Nat.le_of_eq depth, Nat.le_trans (Nat.le_of_eq depth) (Nat.zero_le _)⟩
  before _ hm := nomatch hm

/-- Where the run is now is taken down. -/
theorem noted (h : o.Nested roots maxDepth) : o.noted.Nested roots maxDepth :=
  ⟨h.now, List.forall_mem_cons.2 ⟨h.now, h.before⟩⟩

/-- The run goes on from where it is, or comes back there. -/
theorem of_standing {o' : Observed} (h : o.Nested roots maxDepth) (same : o'.standing = o.standing)
    (standings : o'.standings = o.standings) : o'.Nested roots maxDepth :=
  ⟨same ▸ h.now, standings ▸ h.before⟩

/-- One of the nodes that come next is opened. -/
theorem opened (h : o.Nested roots maxDepth) {node : TreeNode} (next : node ∈ below roots o.nodes) :
    Nested roots maxDepth { o with nodes := node :: o.nodes } :=
  ⟨⟨⟨next, h.now.path⟩, Nat.le_succ_of_le h.now.depth_le_nodes, h.now.depth_le_limit⟩, h.before⟩

/-- The depth is below the limit where another node comes next, if no root is higher than the limit. -/
theorem depth_lt (h : o.Nested roots maxDepth) {node : TreeNode} (next : node ∈ below roots o.nodes)
    (low : ∀ n ∈ roots, n.height ≤ maxDepth) : o.state.depth < maxDepth := by
  have left := h.now.path.height_add_length_le low node next
  have positive := node.height_pos
  have depth : o.state.depth ≤ o.nodes.length := h.now.depth_le_nodes
  have length : node.height + o.nodes.length ≤ maxDepth := left
  omega

end Observed.Nested

namespace Returns

variable {α : Type} {roots : List TreeNode} {maxDepth : Nat} {o : Observed} {x : Observe α}

/-- A node that was opened is closed again. -/
theorem closing {node : TreeNode} (nested : o.Nested roots maxDepth)
    (body : Returns roots maxDepth { o with nodes := node :: o.nodes }.noted
      (x { o with nodes := node :: o.nodes }.noted)) :
    Returns roots maxDepth o (Observe.inside node x o) := by
  have back : (Observe.inside node x o).2.standing = o.standing :=
    congrArg (fun m : Standing => Standing.mk m.nodes.tail m.depth) body.standing
  have closed : Observed.Nested roots maxDepth (Observe.inside node x o).2 := by
    refine Observed.Nested.noted ⟨?_, body.nested.before⟩
    exact back ▸ nested.now
  exact ⟨back, closed, body.low⟩

/-- A level that the limit allows is entered and left again. -/
theorem leaving {limits : Limits} (nested : o.Nested roots limits.maxDepth)
    (room : (∀ n ∈ roots, n.height ≤ limits.maxDepth) → o.state.depth < limits.maxDepth)
    (body : o.state.depth < limits.maxDepth →
      Returns roots limits.maxDepth { o with state.depth := o.state.depth + 1 }.noted
        (x { o with state.depth := o.state.depth + 1 }.noted)) :
    Returns roots limits.maxDepth o (Observe.nested limits x o) := by
  unfold Observe.nested
  split
  · rename_i full
    exact ⟨rfl, nested, fun low _ _ _ => absurd (room low) (Nat.not_lt_of_le full)⟩
  · rename_i free
    have body := body (Nat.lt_of_not_le free)
    have back := congrArg (fun m : Standing => Standing.mk m.nodes (m.depth - 1)) body.standing
    have left : o.standing.Nested roots limits.maxDepth := nested.now
    rw [show o.standing = _ from back.symm] at left
    exact ⟨back, Observed.Nested.noted ⟨left, body.nested.before⟩, body.low⟩

end Returns

/-! ## What a run is put together from -/

namespace Observe

variable {α β : Type} {roots : List TreeNode} {maxDepth : Nat}

/-- Where the given nodes come next, the depth of the computation is its nesting, and it comes back to where it was. -/
def Nests (roots : List TreeNode) (maxDepth : Nat) (next : List TreeNode) (x : Observe α) : Prop :=
  ∀ o : Observed, below roots o.nodes = next → o.Nested roots maxDepth → Returns roots maxDepth o (x o)

namespace Nests

variable {next : List TreeNode}

theorem pure (a : α) : Nests roots maxDepth next (Pure.pure a) := fun _ _ nested => ⟨rfl, nested, fun _ _ _ => nofun⟩

theorem outOfFuel : Nests roots maxDepth next (throw .outOfFuel : Observe α) :=
  fun _ _ nested => ⟨rfl, nested, fun _ _ _ => nofun⟩

theorem bind {x : Observe α} {f : α → Observe β} (hx : Nests roots maxDepth next x)
    (hf : ∀ a, Nests roots maxDepth next (f a)) : Nests roots maxDepth next (x >>= f) := by
  intro o here nested
  have first := hx o here nested
  rw [bind_eq_bindCont]
  cases hr : (x o).1 with
  | error stop =>
    refine ⟨first.standing, first.nested, fun low depth limit same => ?_⟩
    have same : (Except.error stop : Except Stop β) = .error (.stackOverflow depth limit) := same
    exact first.low low depth limit (hr.trans (congrArg Except.error (Except.error.inj same)))
  | ok a =>
    have nodes : (x o).2.nodes = o.nodes := congrArg Standing.nodes first.standing
    have second := hf a (x o).2 (nodes ▸ here) first.nested
    exact ⟨second.standing.trans first.standing, second.nested, second.low⟩

/-- A step that leaves the depth alone, and that is not stopped for it. -/
theorem step {y : Exec α} (depth : ∀ s, (y s).2.depth = s.depth)
    (deep : ∀ s depth limit, (y s).1 ≠ .error (.stackOverflow depth limit)) :
    Nests roots maxDepth next (Observe.step y) := by
  intro o here nested
  have same : { o with state := (y o.state).2 }.standing = o.standing := congrArg (Standing.mk o.nodes) (depth o.state)
  exact ⟨same, (nested.of_standing same rfl).noted, fun _ => deep o.state⟩

theorem plain {y : Exec α} (h : y.Plain) : Nests roots maxDepth next (Observe.step y) := by
  refine step (fun s => (h s).depth) fun s depth limit deep => ?_
  obtain ⟨cause, other⟩ := (h s).stops _ deep
  cases other

theorem tick (limits : Limits) : Nests roots maxDepth next (Observe.step (Exec.tick limits)) := by
  refine step (fun s => by rw [Exec.tick_eq]) fun s depth limit => ?_
  rw [Exec.tick_eq, Limits.counted]
  cases limits.maxIterations with
  | none => nofun
  | some k =>
    dsimp only
    split <;> nofun

theorem inBlock {x : Observe α} (h : Nests roots maxDepth next x) : Nests roots maxDepth next (Observe.inBlock x) := by
  intro o here nested
  have body := h { o with state.frames := o.state.frames.push } here (nested.of_standing rfl rfl)
  exact ⟨body.standing, body.nested.of_standing rfl rfl, body.low⟩

/-- A count of turns or of runs of bodies, and then the computation. -/
theorem counting {x : Observe α} (h : Nests roots maxDepth next x) {f : Observed → Observed}
    (standing : ∀ o, (f o).standing = o.standing) (standings : ∀ o, (f o).standings = o.standings) :
    Nests roots maxDepth next (do modifyThe Observed f; x) := by
  intro o here nested
  have nodes : (f o).nodes = o.nodes := congrArg Standing.nodes (standing o)
  have rest := h (f o) (nodes ▸ here) (nested.of_standing (standing o) (standings o))
  exact ⟨rest.standing.trans (standing o), rest.nested, rest.low⟩

theorem turn (limits : Limits) {prepare : Exec α} (h : prepare.Plain) {f : α → Observe Flow}
    (hf : ∀ a, Nests roots maxDepth next (f a)) : Nests roots maxDepth next (Observe.turn limits prepare f) := by
  unfold Observe.turn
  refine .counting (.bind (.tick limits) fun _ => .bind (.plain h) fun a => ?_) (fun _ => rfl) fun _ => rfl
  exact .counting (.inBlock (hf a)) (fun _ => rfl) fun _ => rfl

/-- A node is opened and closed again. -/
theorem inside {x : Observe α} {node : TreeNode} (listed : node ∈ next)
    (h : Nests roots maxDepth node.children x) : Nests roots maxDepth next (Observe.inside node x) := by
  intro o here nested
  exact .closing nested (h _ rfl (nested.opened (here ▸ listed)).noted)

/-- A node is opened, and entered if the limit allows it. -/
theorem deeper {σ : Setting} {x : Observe α} {node : TreeNode} (listed : node ∈ next)
    (h : Nests roots σ.limits.maxDepth node.children x) :
    Nests roots σ.limits.maxDepth next (Observe.deeper σ node x) := by
  intro o here nested
  have listed : node ∈ below roots o.nodes := here ▸ listed
  have opened := (nested.opened listed).noted
  refine .closing nested (.leaving opened (nested.depth_lt listed) fun room => h _ rfl ?_)
  refine Observed.Nested.noted ⟨⟨opened.now.path, ?_, room⟩, opened.before⟩
  exact Nat.succ_le_succ nested.now.depth_le_nodes

end Nests

/-- Everything that a run is put together from nests. -/
theorem follows_nests (σ : Setting) (roots : List TreeNode) :
    Follows σ (fun next _ x _ => Nests roots σ.limits.maxDepth next x)
      (fun next x _ => Nests roots σ.limits.maxDepth next x) where
  pure a := .pure a
  bind h h' := h.bind h'
  step plain := .plain plain
  inside listed h := .inside listed h
  deeper listed h := .deeper listed h
  inBlock h := h.inBlock
  turn plain h := .turn σ.limits plain h
  turn_bind h h' := h.bind h'
  of_turn h := h
  whileTrue {next _ d _ y} hc hx :=
    whileTrue_related (R := fun x _ => Nests roots σ.limits.maxDepth next x) .pure .bind .outOfFuel (d := d) (y := y)
      hc hx σ.turns

end Observe

/-- **The depth of a run is its nesting.** Run a program, or store a value through a setter. Whenever a step was made or
a level was entered or left, the open nodes are a path in the tree, and the depth is at most how many they are and at
most the limit. Behind every expression and every statement the depth is what it was before, whatever came of it. So if
the tree is no higher than the limit, the run is not stopped for its depth. -/
theorem Setting.depth_nests (σ : Setting) (p : Program) (v : Value) (store : Store) (bindings : Table Value)
    (sites : Array Site) :
    let s := Running.start store bindings sites
    let program := Observe.runProgram σ p (.start s)
    let setter := Observe.runSetter σ p v (.start s)
    σ.runProgram p s = (program.1, program.2.state) ∧ σ.runSetter p v s = (setter.1, setter.2.state)
      ∧ (∀ m ∈ program.2.standings ++ setter.2.standings,
        IsPath p.roots m.nodes ∧ m.depth ≤ m.nodes.length ∧ m.depth ≤ σ.limits.maxDepth)
      ∧ (∀ e s, (σ.deeper (σ.value e) s).2.depth = s.depth) ∧ (∀ st s, (σ.deeper (σ.run st) s).2.depth = s.depth)
      ∧ (p.height ≤ σ.limits.maxDepth → ∀ depth limit,
        program.1 ≠ .error (.stackOverflow depth limit) ∧ setter.1 ≠ .error (.stackOverflow depth limit)) := by
  intro s program setter
  -- one induction gives the path of every evaluation; the bounds are read off it
  have follows := Observe.follows_nests σ p.roots
  have start : (Observed.start s).Nested p.roots σ.limits.maxDepth := .start s rfl
  have ran : Returns p.roots σ.limits.maxDepth (.start s) program := follows.runProgram p _ rfl start
  have stored : Returns p.roots σ.limits.maxDepth (.start s) setter := follows.runSetter p v _ rfl start
  refine ⟨Observe.runProgram_apply σ p (.start s), Observe.runSetter_apply σ p v (.start s), fun m hm => ?_,
    σ.depth_deeper_value, σ.depth_deeper_run, fun low depth limit => ?_⟩
  · have nested : m.Nested p.roots σ.limits.maxDepth := by
      rcases List.mem_append.1 hm with hm | hm
      · exact ran.nested.before m hm
      · exact stored.nested.before m hm
    exact ⟨nested.path, nested.depth_le_nodes, nested.depth_le_limit⟩
  · have low : ∀ n ∈ p.roots, n.height ≤ σ.limits.maxDepth := fun n hn =>
      Nat.le_trans (TreeNode.height_le_of_mem_map_stmt hn) low
    exact ⟨ran.low low depth limit, stored.low low depth limit⟩

/-! ## A loop as deep as it may be -/

/-- A program with a loop, three nodes high. -/
def sumsUp : String := "int s = 0; for (int i = 0; i < 3; i++) \x7b s += i; \x7d s"

/-- What comes of a program under a limit of its depth. -/
def outcomeWithin (maxDepth : Nat) (x : Expression) : Except Stop Value :=
  (Setting.runProgram { Setting.bare with limits := ⟨maxDepth, none⟩ } x.program
    (.start (.ofHeap .empty) [] x.sites)).1

/-- The limit of three levels is enough for the program, however often the loop runs. -/
theorem depth_nests_sumsUp :
    ∃ x, Engine.bare.compile sumsUp false .default = .ok x
      ∧ x.program.height ≤ 3
      ∧ (∀ depth limit, outcomeWithin 3 x ≠ .error (.stackOverflow depth limit))
      ∧ outcomeWithin 3 x = .ok (.int 3) := by
  have found : (Engine.bare.compile sumsUp false .default).toOption.any fun x =>
      decide (x.program.height ≤ 3) && decide (outcomeWithin 3 x = .ok (.int 3)) := by
    decide +kernel
  obtain ⟨x, hx, checked⟩ := exists_ok_of_any found
  obtain ⟨low, outcome⟩ := Bool.and_eq_true_iff.1 checked
  have low := of_decide_eq_true low
  obtain ⟨same, -, -, -, -, uncut⟩ := Setting.depth_nests { Setting.bare with limits := ⟨3, none⟩ } x.program .null
    (.ofHeap .empty) [] x.sites
  refine ⟨x, hx, low, fun depth limit => ?_, of_decide_eq_true outcome⟩
  rw [outcomeWithin, same]
  exact (uncut low depth limit).1

/-- Two levels are not. -/
example : (Engine.bare.compile sumsUp false .default).toOption.any fun x =>
    decide (outcomeWithin 2 x = .error (.stackOverflow 2 2)) := by
  decide +kernel

end HostExpr
