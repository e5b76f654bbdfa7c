import HostExpr.Proofs.Syntax.Beside

/-!
# Formulas in parentheses are no casts

Parentheses around a formula are tried as a cast first. A type can be read from the name that the formula starts with,
and on from a `<` over names and further `<` and `>`; but it always ends in front of an operator, or behind a `>` in
front of the next operand, and never where the parenthesis is closed.
-/

namespace HostExpr.Syntax

open Pattern

/-! ## The text of formulas -/

/-- What a formula starts with. -/
def opensFormula (x : Char) : Bool := startsName x || x = '(' || x = '-' || x = '!'

/-- A text from an operand on, as far as a type could be read from it; `compound` if the operand is not just a name in
front of a closing parenthesis. -/
inductive Opens : (compound : Bool) → List Char → Prop
  | other (x : Char) (v : List Char) (h : x = '(' ∨ x = '-' ∨ x = '!') : Opens true (x :: v)
  | closing (w : Identifier) (s : List Char) : Opens false (w.text ++ ')' :: s)
  | further (w : Identifier) (op : BetweenOp) {compound : Bool} {v : List Char} (h : Opens compound v) :
    Opens true (w.text ++ ' ' :: (op.symbol ++ ' ' :: v))

theorem opensFormula_name (w : Identifier) : opensFormula w.first := by
  simp [opensFormula, w.starts]

theorem opensFormula_ascii {x : Char} (h : opensFormula x) : x.toNat < 128 := by
  simp only [opensFormula, Bool.or_eq_true, decide_eq_true_eq] at h
  rcases h with ((name | rfl) | rfl) | rfl
  · exact ascii_of_startsName name
  all_goals decide

variable {compound : Bool} {v : List Char}

theorem Opens.starts (h : Opens compound v) : ∃ x t, v = x :: t ∧ opensFormula x := by
  cases h with
  | other x v h =>
    refine ⟨x, v, rfl, ?_⟩
    rcases h with rfl | rfl | rfl <;> decide
  | closing w s => exact ⟨w.first, _, rfl, opensFormula_name w⟩
  | further w op h => exact ⟨w.first, _, rfl, opensFormula_name w⟩

/-- What cannot stand behind a type that a formula has been taken for. -/
def notBehindType : List Pattern := [.text [','], .text [')'], .rule .dims]

theorem refused_of_opensFormula {x : Char} (h : opensFormula x) :
    ∀ p ∈ .text ['>'] :: notBehindType, p.refused [x] false := by
  let Refused : Char → Prop := fun x => opensFormula x → ∀ p ∈ .text ['>'] :: notBehindType, p.refused [x] false
  have ascii : ∀ n : Fin 128, Refused (Char.ofNat n) := by decide +kernel
  exact of_ascii ascii (opensFormula_ascii h) h

/-- Where a type ends that has been read from an operand on: behind a name in front of an operator, or behind a `>`, in
front of an operand or of the equality sign of `>=`. -/
inductive InnerEnd : List Char → Prop
  | operator (op : BetweenOp) {compound : Bool} {v : List Char} (h : Opens compound v) : InnerEnd (op.symbol ++ ' ' :: v)
  | opening {compound : Bool} {v : List Char} (h : Opens compound v) : InnerEnd v
  | equals (v : List Char) : InnerEnd ('=' :: v)

variable {fuel o : Nat}

theorem Opens.settled (h : Opens compound v) (o : Nat) : Cursor.Settled ⟨v, o⟩ := by
  obtain ⟨x, t, rfl, opens⟩ := h.starts
  exact Cursor.settled_of_refused [x] (refused_of_opensFormula opens _ (.head _)) t o

theorem Opens.skip (h : Opens compound v) (fuel o : Nat) : skipTrivia fuel ⟨' ' :: v, o⟩ = ⟨v, o + 1⟩ := by
  obtain ⟨x, t, rfl, opens⟩ := h.starts
  exact skipTrivia_blank [x] (refused_of_opensFormula opens _ (.head _)) t fuel o

namespace InnerEnd

/-- Nothing that would go on with the type or end a cast stands where it ends. -/
theorem fails (h : InnerEnd v) {p : Pattern} (hp : p ∈ notBehindType) (fuel : Nat) (mode : Mode) (o : Nat) :
    p.Fails fuel mode ⟨v, o⟩ := by
  cases h with
  | operator op h =>
    have refused : ∀ p ∈ notBehindType, p.refused (op.symbol ++ [' ']) false := of_bindingOrder (by decide +kernel) op
    exact fails_symbol (refused p hp) fuel mode _ o
  | opening h =>
    obtain ⟨x, t, rfl, opens⟩ := h.starts
    exact fails_at [x] (refused_of_opensFormula opens p (.tail _ hp)) t o
  | equals v =>
    have refused : ∀ p ∈ notBehindType, p.refused ['='] false := by decide +kernel
    exact fails_at ['='] (refused p hp) v o

theorem settled (h : InnerEnd v) (o : Nat) : Cursor.Settled ⟨v, o⟩ := by
  cases h with
  | operator op h => exact settled_symbol op _ o
  | opening h => exact h.settled o
  | equals v => exact fun _ => rfl

end InnerEnd

/-! ## Types read from a formula -/

variable {u : List Char} {d e : Cursor} {ns : List Node}

/-- A name is a path of one part: no point follows. -/
theorem matches_qualifiedName (w : Identifier) (h : Behind u) (enough : w.text.length ≤ fuel) (o : Nat) :
    ∃ ns, (Pattern.rule .qualifiedName).Matches (fuel + 2) .building ⟨w.text ++ u, o⟩ (.behind o w.text u) ns := by
  have name : (Pattern.rule .ident).Matches (fuel + 1) .token ⟨w.text ++ u, o⟩ (.behind o w.text u) [] :=
    matches_inside (passes_ident w h.endsName enough o)
  have point : (seq (text ['.']) (.rule .ident)).Stops (fuel + 1) u := by
    refine Stops.seq_left (stops_text_of_absent ?_)
    cases h <;> simp
  have path : Rule.qualifiedName.pattern.Matches (fuel + 1) .token ⟨w.text ++ u, o⟩ (.behind o w.text u) [] := by
    show (Matcher.seq id _ _).Gives _ _
    exact .seq name (matches_none (point _))
  exact ⟨_, matches_token rfl rfl path⟩

/-- A name with what follows it as type arguments is a type, if no dimensions follow. -/
theorem matches_typeExpr (w : Identifier) (h : Behind u) (enough : w.text.length ≤ fuel) (o : Nat)
    (args : (opt (.rule .typeArgs)).Matches (fuel + 2) .building (Cursor.behind o w.text u).pastBlank d ns)
    (skips : ∀ fuel, skipTrivia fuel d = e) (noDims : ∀ fuel, (Pattern.rule .dims).Fails fuel .building e) :
    ∃ ns, (Pattern.rule .typeExpr).Matches (fuel + 4) .building ⟨w.text ++ u, o⟩ e ns := by
  obtain ⟨path, qualified⟩ := matches_qualifiedName w h enough o
  have second : (opt (.rule .typeArgs)).Matches (fuel + 2) .building (skipTrivia (fuel + 2) (.behind o w.text u)) d ns := by
    rw [Cursor.behind, h.skip]
    exact args
  have name := matches_node rfl rfl (r := .typeName) (matches_seq qualified second)
  have last : (opt (.rule .dims)).Matches (fuel + 3) .building (skipTrivia (fuel + 3) d) e [] := by
    rw [skips]
    exact .opt_of_fails (noDims _)
  exact ⟨_, matches_node rfl rfl (matches_seq name last)⟩

/-- A type read from a name ends behind the name unless type arguments follow. -/
theorem matches_typeExpr_of_fails (w : Identifier) (h : Behind u) (enough : w.text.length ≤ fuel) (o : Nat)
    (noArgs : (Pattern.rule .typeArgs).Fails (fuel + 2) .building (Cursor.behind o w.text u).pastBlank) :
    ∃ ns, (Pattern.rule .typeExpr).Matches (fuel + 4) .building ⟨w.text ++ u, o⟩ (Cursor.behind o w.text u).pastBlank
      ns :=
  matches_typeExpr w h enough o (.opt_of_fails noArgs) (h.settled _)
    fun fuel => h.fails (by simp [notBehind]) fuel .building _

/-- The pattern fails or it matches up to a place of the kind. -/
def EndsIn (P : Cursor → Prop) (p : Pattern) (fuel : Nat) (c : Cursor) : Prop :=
  p.Fails fuel .building c ∨ ∃ d ns, p.Matches fuel .building c d ns ∧ P d

theorem EndsIn.imp {P Q : Cursor → Prop} {p : Pattern} {c : Cursor} (h : EndsIn P p fuel c) (hPQ : ∀ d, P d → Q d) :
    EndsIn Q p fuel c := by
  rcases h with fails | ⟨d, ns, found, ends⟩
  · exact .inl fails
  · exact .inr ⟨d, ns, found, hPQ d ends⟩

/-- Behind a `>` a type has ended, past the blank. -/
theorem ends_closingAngle (h : InnerEnd v) (fuel o : Nat) :
    EndsIn (fun d => ∃ e, (∀ fuel, skipTrivia fuel d = e) ∧ InnerEnd e.rest) (text ['>']) fuel ⟨v, o⟩ := by
  cases h with
  | operator op h =>
    by_cases angle : op = .compare .gt ∨ op = .compare .ge
    · rcases angle with rfl | rfl
      · exact .inr ⟨_, _, matches_text ['>'] (' ' :: _) o, _, fun fuel => h.skip fuel _, .opening h⟩
      · exact .inr ⟨_, _, matches_text ['>'] ('=' :: ' ' :: _) o, _, fun _ => rfl, .equals _⟩
    · have refused : ¬ (op = .compare .gt ∨ op = .compare .ge) → (text ['>']).refused (op.symbol ++ [' ']) false :=
        of_bindingOrder (by decide) op
      exact .inl (fails_symbol (refused angle) _ _ _ o)
  | opening h =>
    obtain ⟨x, t, rfl, opens⟩ := h.starts
    exact .inl (fails_at [x] (refused_of_opensFormula opens _ (.head _)) t o)
  | equals v => exact .inl (fails_at ['='] (by decide) v o)

/-- Type arguments after a `<`, if what is read inside of them ends where types of a formula end. -/
theorem ends_typeArgs (h : Opens compound v) (inner : EndsIn (fun d => InnerEnd d.rest ∨ ∃ s, d.rest = ')' :: s)
      (.rule .typeExpr) (fuel + 1) ⟨v, o + 2⟩) :
    EndsIn (fun d => ∃ e, (∀ fuel, skipTrivia fuel d = e) ∧ InnerEnd e.rest) (.rule .typeArgs) (fuel + 2)
      ⟨'<' :: ' ' :: v, o⟩ := by
  have angle : (text ['<']).Matches (fuel + 1) .building ⟨'<' :: ' ' :: v, o⟩ ⟨' ' :: v, o + 1⟩ [] :=
    matches_text ['<'] (' ' :: v) o
  rcases inner with fails | ⟨d, ns, type, ends⟩
  · refine .inl (fails_node rfl (fails_then angle ?_))
    rw [h.skip]
    exact fails_seq (fails_seq fails)
  · -- no comma follows the type, so that only the closing angle can
    have settled : ∀ fuel, skipTrivia fuel d = d := by
      rcases ends with ends | ⟨s, closed⟩
      · exact ends.settled d.offset
      · intro fuel
        rw [skipTrivia, closed]
        rfl
    have noComma : (seq (text [',']) (.rule .typeExpr)).Fails (fuel + 1) .building d := by
      rcases ends with ends | ⟨s, closed⟩
      · exact fails_seq (ends.fails (.head _) _ _ d.offset)
      · rw [show d = ⟨')' :: s, d.offset⟩ by rw [← closed]]
        exact fails_at [')'] (by decide) s _
    have single : (separated (.rule .typeExpr) [',']).Matches (fuel + 1) .building (skipTrivia (fuel + 1) ⟨' ' :: v, o + 1⟩)
        d (ns ++ []) := by
      rw [h.skip]
      refine matches_seq type ?_
      rw [settled]
      exact matches_none noComma
    have closing : EndsIn (fun d => ∃ e, (∀ fuel, skipTrivia fuel d = e) ∧ InnerEnd e.rest) (text ['>']) (fuel + 1) d := by
      rcases ends with ends | ⟨s, closed⟩
      · exact ends_closingAngle ends _ d.offset
      · rw [show d = ⟨')' :: s, d.offset⟩ by rw [← closed]]
        exact .inl (fails_at [')'] (by decide) s _)
    rw [← settled (fuel + 1)] at closing
    rcases closing with fails | ⟨e, ms, close, ends⟩
    · exact .inl (fails_node rfl (fails_then angle (fails_then single fails)))
    · exact .inr ⟨e, _, matches_node rfl rfl (matches_seq angle (matches_seq single close)), ends⟩

/-- An operator behind a name starts type arguments only if it is `<`. -/
theorem ends_typeArgs_symbol (op : BetweenOp) (h : Opens compound v)
    (inner : EndsIn (fun d => InnerEnd d.rest ∨ ∃ s, d.rest = ')' :: s) (.rule .typeExpr) (fuel + 1) ⟨v, o + 2⟩) :
    EndsIn (fun d => ∃ e, (∀ fuel, skipTrivia fuel d = e) ∧ InnerEnd e.rest) (.rule .typeArgs) (fuel + 2)
      ⟨op.symbol ++ ' ' :: v, o⟩ := by
  by_cases angle : op = .compare .lt ∨ op = .compare .le
  · rcases angle with rfl | rfl
    · exact ends_typeArgs h inner
    · -- no type starts with the equality sign
      have less : (text ['<']).Matches (fuel + 1) .building ⟨'<' :: '=' :: ' ' :: v, o⟩ ⟨'=' :: ' ' :: v, o + 1⟩ [] :=
        matches_text ['<'] ('=' :: ' ' :: v) o
      exact .inl (fails_node rfl (fails_then less (fails_at ['='] (by decide +kernel) (' ' :: v) (o + 1))))
  · have refused : ¬ (op = .compare .lt ∨ op = .compare .le) →
        (Pattern.rule .typeArgs).refused (op.symbol ++ [' ']) false :=
      of_bindingOrder (by decide) op
    exact .inl (fails_symbol (refused angle) _ _ _ o)

/-- A type read from an operand on ends in front of a closing parenthesis only if the operand is just a name. -/
theorem ends_typeExpr (h : Opens compound v) (enough : 4 * v.length + 8 ≤ fuel) (o : Nat) :
    EndsIn (fun d => InnerEnd d.rest ∨ compound = false ∧ ∃ s, d.rest = ')' :: s) (.rule .typeExpr) fuel ⟨v, o⟩ := by
  -- on the text: inside of type arguments a type is read from the next operand on
  induction h generalizing fuel o with
  | other x v h =>
    have refused : (Pattern.rule .typeExpr).refused [x] false := by rcases h with rfl | rfl | rfl <;> decide +kernel
    exact .inl (fails_at [x] refused v o)
  | closing w s =>
    obtain ⟨fuel, rfl⟩ : ∃ f, fuel = f + 4 := ⟨fuel - 4, by omega⟩
    rw [List.length_append] at enough
    have long : w.text.length ≤ fuel := by omega
    have noArgs : (Pattern.rule .typeArgs).Fails (fuel + 2) .building (Cursor.behind o w.text (')' :: s)).pastBlank :=
      fails_at [')'] (by decide) s (o + byteLength w.text)
    obtain ⟨ns, type⟩ := matches_typeExpr_of_fails w (.closing s) long o noArgs
    exact .inr ⟨_, ns, type, .inr ⟨rfl, s, rfl⟩⟩
  | @further w op compound v h ih =>
    obtain ⟨fuel, rfl⟩ : ∃ f, fuel = f + 4 := ⟨fuel - 4, by omega⟩
    simp only [List.length_append, List.length_cons] at enough
    have long : w.text.length ≤ fuel := by omega
    have behind : Behind (' ' :: (op.symbol ++ ' ' :: v)) := .operator op v
    have inner : EndsIn (fun d => InnerEnd d.rest ∨ ∃ s, d.rest = ')' :: s) (.rule .typeExpr) (fuel + 1)
        ⟨v, o + byteLength w.text + 1 + 2⟩ :=
      (ih (by omega) _).imp fun d ends => ends.imp_right And.right
    -- the type ends in front of the operator, or behind the `>` of its arguments
    rcases ends_typeArgs_symbol op h inner with fails | ⟨d, ms, args, e, skips, ends⟩
    · obtain ⟨ns, type⟩ := matches_typeExpr_of_fails w behind long o fails
      exact .inr ⟨_, ns, type, .inl (.operator op h)⟩
    · obtain ⟨ns, type⟩ := matches_typeExpr w behind long o (.opt args) skips
        fun fuel => ends.fails (by simp [notBehindType]) fuel .building e.offset
      exact .inr ⟨_, ns, type, .inl ends⟩

/-- A parenthesis in front of more than a name starts no cast. -/
theorem fails_castOp (h : Opens true v) (enough : 4 * v.length + 9 ≤ fuel) (o : Nat) :
    (Pattern.rule .castOp).Fails fuel .building ⟨'(' :: v, o⟩ := by
  obtain ⟨fuel, rfl⟩ : ∃ f, fuel = f + 1 := ⟨fuel - 1, by omega⟩
  have opening : (text ['(']).Matches fuel .building ⟨'(' :: v, o⟩ ⟨v, o + 1⟩ [] := matches_text ['('] v o
  refine fails_node rfl (fails_then opening ?_)
  rw [h.settled]
  have room : 4 * v.length + 8 ≤ fuel := by omega
  -- if there is a type, something else than the closing parenthesis stands behind it
  rcases ends_typeExpr h room (o + 1) with fails | ⟨d, ns, type, ends⟩
  · exact fails_seq fails
  · have inner : InnerEnd d.rest := ends.resolve_right fun closed => by cases closed.1
    refine fails_then type (fails_seq ?_)
    rw [inner.settled]
    exact inner.fails (by simp [notBehindType]) fuel .building d.offset

/-! ## Formulas -/

theorem opens_bracketed (needed : Bool) {w s : List Char} (h : Opens compound (w ++ s)) :
    ∃ compound, Opens compound (bracketed needed w ++ s) := by
  cases needed with
  | false => exact ⟨_, h⟩
  | true => exact ⟨_, .other '(' _ (.inl rfl)⟩

namespace Formula

/-- A formula as left operand. -/
theorem opens_left (t : Formula) (op : BetweenOp) (h : Opens compound v) :
    Opens true (t.text ++ ' ' :: (op.symbol ++ ' ' :: v)) := by
  induction t generalizing op v compound with
  | name w => exact .further w op h
  | unary op' t ih =>
    refine .other op'.symbol _ ?_
    cases op' <;> simp [UnaryOp.symbol]
  | binary op' l r ihl ihr =>
    obtain ⟨_, right⟩ := opens_bracketed (r.level ≤ op'.level) (ihr op h)
    simp only [text, List.append_assoc, List.cons_append]
    cases decide (l.level < op'.level) with
    | true => exact .other '(' _ (.inl rfl)
    | false => exact ihl op' right

/-- A formula up to the parenthesis that closes it; it is compound unless it is a name. -/
theorem opens_closing (t : Formula) (s : List Char) : Opens (t.level ≤ bindingOrder.length) (t.text ++ ')' :: s) := by
  induction t with
  | name w => exact .closing w s
  | unary op t ih =>
    have compound : decide ((unary op t).level ≤ bindingOrder.length) = true := by simp [level]
    rw [compound]
    refine .other op.symbol _ ?_
    cases op <;> simp [UnaryOp.symbol]
  | binary op l r ihl ihr =>
    have compound : decide ((binary op l r).level ≤ bindingOrder.length) = true := by
      simp [level, Nat.le_of_lt op.level_lt]
    obtain ⟨_, right⟩ := opens_bracketed (r.level ≤ op.level) ihr
    rw [compound]
    simp only [text, List.append_assoc, List.cons_append]
    cases decide (l.level < op.level) with
    | true => exact .other '(' _ (.inl rfl)
    | false => exact opens_left l op right

end Formula

end HostExpr.Syntax
