import HostExpr.Proofs.Scope.Tracks

/-!
# Tracked evaluation of expressions

An expression does the same in a tracked run, leaves the frames and the origins of their entries, and all its accesses
to names are sound. The induction is on the expression; the scopes and the frames around it stay the same throughout.
-/

namespace HostExpr

open Typed

variable (σ : Setting) {Γ : Scopes Declared} {Φ : Scopes Path}

section

variable {α : Type} {x : Tracking α} {y : Exec α}

/-- A step that leaves the frames alone. -/
theorem Follows.lift (hy : Exec.KeepsFrames y) : Follows Φ (Tracking.lift y) y Φ := Tracks.lift hy

/-- One level deeper. -/
theorem Follows.deeper {Ψ : Scopes Path} (hx : Follows Φ x y Ψ) :
    Follows Φ (Tracking.nested σ.limits x) (σ.deeper y) Ψ := Tracks.nested σ.limits hx

end

namespace Setting

variable {x : Tracking Value} {y : Exec Value}

theorem follows_readPlace (h : Follows Φ x y Φ) (place : Place) :
    Follows Φ (Tracking.readPlace σ x place) (σ.readPlace y place) Φ := by
  cases place with
  | name target => exact h
  | property receiver name site => exact .lift (.atSite _ _ _)
  | index receiver position site => exact .lift (.atSite _ _ _)

theorem follows_writePlace (hc : Covers Γ Φ) (v : Value) (place : Place) :
    Follows Φ (Tracking.writePlace σ Γ v place) (σ.writePlace v place) Φ := by
  unfold Tracking.writePlace
  split
  · exact .writeName hc _ v
  · rename_i other
    exact .lift (σ.keepsFrames_writePlace v other)

theorem follows_combine {x' : Tracking Value} {y' : Exec Value} (op : AssignOp) (h : Follows Φ x y Φ)
    (h' : Follows Φ x' y' Φ) : Follows Φ (Tracking.combine σ op x x') (σ.combine op y y') Φ := by
  cases op with
  | plain => exact h'
  | compound op => exact h.bind fun old => h'.bind fun operand => .lift (.act _)

theorem follows_truthOf (h : Follows Φ x y Φ) : Follows Φ (Tracking.truthOf σ x) (y >>= σ.truth) Φ :=
  h.bind fun _ => .lift (.act _)

theorem follows_logic {x x' : Tracking Bool} {y y' : Exec Bool} (op : LogicOp) (h : Follows Φ x y Φ)
    (h' : Follows Φ x' y' Φ) : Follows Φ (Tracking.logic op x x') (logic op y y') Φ := by
  refine h.bind fun l => ?_
  cases op <;> cases l
  · exact .pure fun _ hm => hm
  · exact h'.map _ fun _ _ hm => hm
  · exact h'.map _ fun _ _ hm => hm
  · exact .pure fun _ hm => hm

mutual

/-- The value of an expression. -/
theorem follows_value (hc : Covers Γ Φ) (e : Expr) : Follows Φ (Tracking.value σ Γ e) (σ.value e) Φ := by
  have operand (e' : Expr) (h : sizeOf e' < sizeOf e) :
      Follows Φ (Tracking.nested σ.limits (Tracking.value σ Γ e')) (σ.deeper (σ.value e')) Φ :=
    .deeper σ (follows_value hc e')
  -- by recursion on the expression: a name is read or written, and everything else leaves the frames as they are
  cases e with
  | constant info v =>
    unfold Tracking.value value
    exact .pure fun _ hm => hm
  | declared info name =>
    unfold Tracking.value value
    exact .readName hc name
  | input info name site =>
    unfold Tracking.value value
    exact .lift (σ.keeps_readInput name site)
  | this info =>
    unfold Tracking.value value
    exact .pure fun _ hm => hm
  | classRef info c =>
    unfold Tracking.value value
    exact .pure fun _ hm => hm
  | staticField info c field =>
    unfold Tracking.value value
    exact .lift (σ.keeps_staticField c field)
  | property info receiver name site =>
    unfold Tracking.value value
    exact (operand receiver (by simp +arith)).bind fun receiver => .lift (.atSite _ _ _)
  | methodCall info receiver name args site =>
    unfold Tracking.value value
    refine (operand receiver (by simp +arith)).bind fun receiver => ?_
    exact (follows_values hc args).bind fun args => .lift (.atSite _ _ _)
  | functionCall info function args =>
    unfold Tracking.value value
    exact (follows_values hc args).bind fun args => .lift (σ.keeps_callFunction function args)
  | convert info v target =>
    unfold Tracking.value value
    refine (operand v (by simp +arith)).bind fun v => ?_
    exact (operand target (by simp +arith)).bind fun target => .lift (σ.keeps_convertToClass v target)
  | index info receiver position site =>
    unfold Tracking.value value
    refine (operand receiver (by simp +arith)).bind fun receiver => ?_
    exact (operand position (by simp +arith)).bind fun position => .lift (.atSite _ _ _)
  | assign info target op v stored =>
    unfold Tracking.value value
    refine (follows_place hc target).bind fun place => ?_
    have old := σ.follows_readPlace (operand target (by simp +arith)) place
    refine (σ.follows_combine op old (operand v (by simp +arith))).bind fun new => ?_
    refine Tracks.bind (.lift (σ.keeps_convert? new stored)) fun new => ?_
    exact (σ.follows_writePlace hc new place).bind fun _ => .pure fun _ hm => hm
  | arith info op left right =>
    unfold Tracking.value value
    refine (operand left (by simp +arith)).bind fun left => ?_
    exact (operand right (by simp +arith)).bind fun right => .lift (.act _)
  | logic info op left right =>
    unfold Tracking.value value
    have left := σ.follows_truthOf (operand left (by simp +arith))
    have right := σ.follows_truthOf (operand right (by simp +arith))
    exact follows_logic op left right
  | compare info op left right =>
    unfold Tracking.value value
    refine (operand left (by simp +arith)).bind fun left => ?_
    refine (operand right (by simp +arith)).bind fun right => ?_
    exact Tracks.map _ (.lift (.act _)) fun _ _ hm => hm
  | unary info op e =>
    unfold Tracking.value value
    exact (operand e (by simp +arith)).bind fun v => .lift (σ.keeps_unary op v)
  | step info op target =>
    unfold Tracking.value value
    refine (follows_place hc target).bind fun place => ?_
    refine (σ.follows_readPlace (operand target (by simp +arith)) place).bind fun old => ?_
    refine Tracks.bind (.lift (σ.keeps_counted op target.type old)) fun new => ?_
    exact (σ.follows_writePlace hc new place).bind fun _ => .pure fun _ hm => hm
  | cast info type e =>
    unfold Tracking.value value
    exact (operand e (by simp +arith)).bind fun v => .lift (.act _)
  | conditional info cond thenBranch elseBranch =>
    unfold Tracking.value value
    refine (operand cond (by simp +arith)).bind fun cond => ?_
    refine Tracks.bind (.lift (.act _)) fun holds => ?_
    cases holds with
    | true => exact operand thenBranch (by simp +arith)
    | false => exact operand elseBranch (by simp +arith)
  | construct info c args chosen =>
    unfold Tracking.value value
    exact (follows_values hc args).bind fun args => .lift (.act _)
  | newArray info item items =>
    unfold Tracking.value value
    exact (follows_values hc items).bind fun items => .lift (.act _)
  | newSized info item length =>
    unfold Tracking.value value
    exact (operand length (by simp +arith)).bind fun length => .lift (σ.keeps_newSized item length)
  | inlineList info items =>
    unfold Tracking.value value
    exact (follows_values hc items).bind fun items => .lift (.act _)
  | inlineMap info entries =>
    unfold Tracking.value value
    exact (follows_entryValues hc entries).bind fun entries => .lift (.act _)
termination_by sizeOf e

/-- The place that an expression names. -/
theorem follows_place (hc : Covers Γ Φ) (e : Expr) : Follows Φ (Tracking.place σ Γ e) (σ.place e) Φ := by
  have operand (e' : Expr) (h : sizeOf e' < sizeOf e) :
      Follows Φ (Tracking.nested σ.limits (Tracking.value σ Γ e')) (σ.deeper (σ.value e')) Φ :=
    .deeper σ (follows_value hc e')
  cases e with
  | property info receiver name site =>
    unfold Tracking.place place
    exact (operand receiver (by simp +arith)).bind fun receiver => .pure fun _ hm => hm
  | index info receiver position site =>
    unfold Tracking.place place
    refine (operand receiver (by simp +arith)).bind fun receiver => ?_
    exact (operand position (by simp +arith)).bind fun position => .pure fun _ hm => hm
  | _ =>
    unfold Tracking.place place
    exact .pure fun _ hm => hm
termination_by sizeOf e

/-- The values of expressions in a row. -/
theorem follows_values (hc : Covers Γ Φ) (es : List Expr) :
    Follows Φ (Tracking.values σ Γ es) (σ.values es) Φ := by
  cases es with
  | nil =>
    unfold Tracking.values values
    exact .pure fun _ hm => hm
  | cons e es =>
    unfold Tracking.values values
    have first : Follows Φ _ _ Φ := .deeper σ (follows_value hc e)
    refine first.bind fun v => ?_
    exact (follows_values hc es).bind fun vs => .pure fun _ hm => hm
termination_by sizeOf es

/-- The keys and values of the entries of a map. -/
theorem follows_entryValues (hc : Covers Γ Φ) (entries : List (Expr × Expr)) :
    Follows Φ (Tracking.entryValues σ Γ entries) (σ.entryValues entries) Φ := by
  match entries with
  | [] =>
    unfold Tracking.entryValues entryValues
    exact .pure fun _ hm => hm
  | (k, v) :: rest =>
    unfold Tracking.entryValues entryValues
    have key : Follows Φ _ _ Φ := .deeper σ (follows_value hc k)
    have value : Follows Φ _ _ Φ := .deeper σ (follows_value hc v)
    refine key.bind fun k => ?_
    refine value.bind fun v => ?_
    exact (follows_entryValues hc rest).bind fun es => .pure fun _ hm => hm
termination_by sizeOf entries

end

end Setting

end HostExpr
