import HostExpr.Execution.Expr
import HostExpr.Proofs.Type.Order
import HostExpr.Proofs.Typing.Made

/-!
# The types of operators

What arithmetic makes of values suits the type that analysis records for the operator, if the operands suit their own.
Numbers stay what they are: the result is of the class of one of the operands.
-/

namespace HostExpr

open Classes

variable {cs : Classes}

/-! ## Values -/

namespace Value

theorem isNumeric_classRef {v : Value} (h : v.isNumeric) : v.classRef.isNumeric := by
  unfold isNumeric at h
  split at h
  · rfl
  · rfl
  · rfl
  · cases h

/-- A number suits a type that says something only as one of the numbers it takes. -/
theorem mem_narrower_of_suits {v : Value} {t : Ty} (hv : v.isNumeric) (h : cs.suits v t) (known : t.isDynamic = false) :
    v.classRef ∈ t.cls.narrower := by
  obtain ⟨d, hd, sub⟩ := List.any_eq_true.1 h
  rcases eq_of_isSubclass_numeric (isNumeric_classRef hv) sub with rfl | rfl
  · exact hd
  · -- only the class that says nothing is narrower than itself without being a number
    have plain := isNumeric_of_mem_narrower hd
    rw [narrower_of_not_numeric plain.symm, List.mem_singleton] at hd
    exact absurd (decide_eq_true hd.symm) (by simpa [Ty.isDynamic, ClassRef.isDynamic] using known)

/-- A text is no number. -/
theorem isStr_of_suits {v : Value} {t : Ty} (h : cs.suits v t) (number : t.isNumeric) : v.isStr = false := by
  cases v with
  | str s =>
    obtain ⟨d, hd, sub⟩ := List.any_eq_true.1 h
    have numeric : d.isNumeric = true := (isNumeric_of_mem_narrower hd).trans number
    rw [isSubclass_iff] at sub
    simp only [classRef, lineage, Builtin.lineage, List.mem_cons, List.not_mem_nil, or_false] at sub
    rcases sub with rfl | h | rfl | rfl
    · cases numeric
    · cases h
    · cases numeric
    · cases numeric
  | _ => rfl

end Value

/-! ## Arithmetic -/

/-- Numbers give a number of the class of one of them. -/
theorem ArithOp.onNumbers_ok {op : ArithOp} {left right v : Value} (h : op.onNumbers cs left right = .ok v) :
    left.isNumeric ∧ right.isNumeric ∧ (v.classRef = left.classRef ∨ v.classRef = right.classRef) := by
  unfold onNumbers at h
  split at h
  · split at h
    · cases h
      exact ⟨rfl, rfl, .inl rfl⟩
    · cases h
  · -- two ints give an int, a double gives a double, and otherwise a long is one of the two
    rename_i ints
    split at h
    · rename_i double
      split at h
      · rename_i l r hl hr
        cases h
        cases left <;> cases hl <;> cases right <;> cases hr <;> simp_all [Value.isDouble, Value.isNumeric, Value.classRef]
      · cases h
    · split at h
      · rename_i l r hl hr
        split at h
        · cases h
          cases left <;> cases hl <;> cases right <;> cases hr <;> simp_all [Value.isNumeric, Value.classRef]
        · cases h
      · cases h

/-- Arithmetic joins texts, or computes with numbers. -/
theorem ArithOp.apply_ok {op : ArithOp} {left right v : Value} {s s' : Store}
    (h : op.apply cs left right s = (.ok v, s')) :
    op = .add ∧ (left.isStr || right.isStr) ∧ v.classRef = .builtin .string
      ∨ ¬ (op = .add ∧ (left.isStr || right.isStr)) ∧ op.onNumbers cs left right = .ok v := by
  unfold apply at h
  split at h
  · rename_i texts
    refine .inl ⟨texts.1, texts.2, ?_⟩
    -- a text is made without the outside, so that this holds in any world
    have joined : Act.Proper World.bare (do
        let l ← Act.textOf cs left
        let r ← Act.textOf cs right
        return Value.str (l ++ r)) fun r => r.classRef = .builtin .string :=
      (Act.Proper.quiet (Act.quiet_textOf cs left)).bind fun _ _ =>
        (Act.Proper.quiet (Act.quiet_textOf cs right)).bind fun _ _ => .pure rfl
    obtain ⟨-, -, -, -, gives⟩ := joined s
    exact gives v (by rw [h])
  · rename_i numbers
    refine .inr ⟨numbers, ?_⟩
    cases hw : op.onNumbers cs left right with
    | ok w =>
      rw [hw] at h
      cases h
      rfl
    | error e =>
      rw [hw] at h
      cases h

/-- A changed sign leaves the class of a number. -/
theorem classRef_of_negate {v w : Value} (h : negate cs v = .ok w) : w.classRef = v.classRef := by
  unfold negate at h
  split at h
  · cases h
    rfl
  · cases h
    rfl
  · cases h
    rfl
  · cases h

/-! ## Types -/

namespace Context

open Analysis

variable {ctx : Context} {a : AnalysisState}

/-- Why the result of arithmetic has its type: a text is joined, both operands are numbers, or nothing is known. -/
inductive ArithAs (op : ArithOp) (left right : Ty) : Ty → Prop
  | text (h : op = .add ∧ (left.isString || right.isString)) : ArithAs op left right .string
  | number (plain : ¬ (op = .add ∧ (left.isString || right.isString))) {t : Ty} (h : left.promote? right = some t) :
      ArithAs op left right t
  | unknown : ArithAs op left right .object

theorem yields_arithType (op : ArithOp) (left right : Ty) (span : Span) :
    Yields (ctx.arithType op left right span) a fun t _ => ArithAs op left right t := by
  unfold arithType
  split
  · rename_i h
    exact .pure (.text h)
  · rename_i plain
    split
    · rename_i t h
      exact .pure (.number plain h)
    · refine .bind fun strong b _ => ?_
      split
      · exact .pure .unknown
      · exact .fail _ _

/-- A changed sign leaves the type of a number; of what else there is nothing is known. -/
theorem yields_negType (operand : Ty) (span : Span) :
    Yields (ctx.unaryType .neg operand span) a fun t _ => t = operand ∨ t = .object := by
  unfold unaryType
  dsimp only
  split
  · exact .pure (.inl rfl)
  · refine .bind fun strong b _ => ?_
    split
    · exact .pure (.inr rfl)
    · exact .fail _ _

end Context

theorem Ty.isNumeric_of_rank? {t : Ty} {n : Nat} (h : t.rank? = some n) : t.isNumeric := by
  unfold rank? at h
  split at h
  · rename_i same
    rw [isNumeric, same]
    rfl
  · rename_i same
    rw [isNumeric, same]
    rfl
  · rename_i same
    rw [isNumeric, same]
    rfl
  · cases h

theorem Ty.isNumeric_of_promote? {a b t : Ty} (h : a.promote? b = some t) : a.isNumeric ∧ b.isNumeric := by
  unfold promote? at h
  split at h
  · rename_i m n hm hn
    exact ⟨isNumeric_of_rank? hm, isNumeric_of_rank? hn⟩
  · cases h

theorem Ty.isDynamic_of_isNumeric {t : Ty} (h : t.isNumeric) : t.isDynamic = false := by
  cases known : t.isDynamic with
  | false => rfl
  | true =>
    have top : t.cls = .builtin .object := of_decide_eq_true known
    rw [isNumeric, top] at h
    cases h

theorem Ty.isDynamic_of_isString {t : Ty} (h : t.isString) : t.isDynamic = false := by
  have text : t.cls = .builtin .string := of_decide_eq_true h
  rw [isDynamic, text]
  rfl

/-- A number is no text. -/
theorem Value.not_isString_of_suits {v : Value} {t : Ty} (hv : v.isNumeric) (h : cs.suits v t) :
    t.isString = false := by
  cases text : t.isString with
  | false => rfl
  | true =>
    have listed := mem_narrower_of_suits hv h (Ty.isDynamic_of_isString text)
    have numeric := isNumeric_of_mem_narrower listed
    rw [isNumeric_classRef hv, of_decide_eq_true text] at numeric
    cases numeric

/-- What arithmetic makes of values suits the type of the result. -/
theorem suits_arith {op : ArithOp} {left right t : Ty} (typed : Context.ArithAs op left right t) {l r v : Value}
    (hl : cs.suits l left) (hr : cs.suits r right) {s s' : Store} (h : op.apply cs l r s = (.ok v, s')) :
    cs.suits v t := by
  rcases ArithOp.apply_ok h with ⟨added, texts, text⟩ | ⟨plain, numbers⟩
  · cases typed with
    | text => exact suits_of_eq text
    | number _ promoted =>
      -- numbers are no texts
      obtain ⟨nl, nr⟩ := Ty.isNumeric_of_promote? promoted
      rw [Value.isStr_of_suits hl nl, Value.isStr_of_suits hr nr] at texts
      cases texts
    | unknown => exact suits_of_isDynamic rfl v
  · obtain ⟨nl, nr, same⟩ := ArithOp.onNumbers_ok numbers
    cases typed with
    | text joined =>
      have joined := joined.2
      rw [Value.not_isString_of_suits nl hl, Value.not_isString_of_suits nr hr] at joined
      cases joined
    | number _ promoted =>
      obtain ⟨sl, sr⟩ := Ty.isNumeric_of_promote? promoted
      obtain ⟨wl, wr⟩ := mem_narrower_of_promote? promoted
      have left := narrower_trans wl (Value.mem_narrower_of_suits nl hl (Ty.isDynamic_of_isNumeric sl))
      have right := narrower_trans wr (Value.mem_narrower_of_suits nr hr (Ty.isDynamic_of_isNumeric sr))
      rcases same with same | same
      · exact List.any_eq_true.2 ⟨_, left, same ▸ cs.isSubclass_refl _⟩
      · exact List.any_eq_true.2 ⟨_, right, same ▸ cs.isSubclass_refl _⟩
    | unknown => exact suits_of_isDynamic rfl v

/-- Counting a text up, which joins it with a one, leaves it a text; nothing else but numbers can be counted. -/
theorem suits_step {op : ArithOp} {t : Ty} {old new : Value} (h : cs.suits old t) (plain : t.isNumeric = false)
    {s s' : Store} (made : op.apply cs old (.int 1) s = (.ok new, s')) : cs.suits new t := by
  cases known : t.isDynamic with
  | true => exact suits_of_isDynamic known new
  | false =>
    rcases ArithOp.apply_ok made with ⟨-, texts, text⟩ | ⟨-, numbers⟩
    · have texts : old.isStr := by simpa [Value.isStr] using texts
      cases old with
      | str s =>
        unfold suits at h ⊢
        rw [text]
        exact h
      | _ => cases texts
    · obtain ⟨number, -, -⟩ := ArithOp.onNumbers_ok numbers
      have numeric := isNumeric_of_mem_narrower (Value.mem_narrower_of_suits number h known)
      rw [Value.isNumeric_classRef number] at numeric
      exact absurd numeric.symm (by simpa [Ty.isNumeric] using plain)

end HostExpr
