import HostExpr.Proofs.Engine.Calls
import HostExpr.Proofs.Value.Display

/-!
# Converting twice

What a conversion to a type gives fits the type, and not only in pose: a conversion to an array type with items of a
type gives an array or null, never an instance of a host class that extends `Array`. So a second conversion leaves it
alone: it gives the same handle, adds no cell and asks nobody.

A conversion to `String` and back loses nothing of the values that their text tells: ints, longs and truth values.
Decimal texts have no blanks to be trimmed and no mark to be stripped, so all three readers read what was written.
-/

namespace HostExpr

open Act

namespace World

variable {w : World} {t : Ty} {v r : Value}

/-- Only instances pose as arrays. -/
theorem posesAs_array (h : Handle) (item t : Ty) : w.classes.posesAs (.array h item) t = false := by
  unfold Classes.posesAs
  split
  · rename_i poses
    cases poses
  · rfl

/-- What a conversion gives does not pose as an array. An instance comes out of a conversion to another type only. -/
theorem posesAs_convertTo {s s' : Store} (h : w.convertTo t v s = (.ok r, s')) :
    w.classes.posesAs r t = false := by
  unfold convertTo at h
  split at h
  · rename_i item rest
    -- an array that is made for a type shows that type
    have refit {items : List Value} {s : Store}
        (h : (do newArray item (← items.mapM (w.convertTo item)) : Act Value) s = (.ok r, s')) :
        w.classes.posesAs r (.mk (.builtin .array) (item :: rest)) = false := by
      obtain ⟨fitted, s₁, -, made⟩ := of_bind_ok h
      cases made
      exact posesAs_array _ _ _
    dsimp only at h
    split at h
    · split at h
      · cases h
        exact posesAs_array _ _ _
      · exact refit h
    · exact refit h
    · cases h
      rfl
    · cases h
  · rename_i other
    unfold Classes.posesAs
    split
    · exact absurd rfl (other _ _)
    · rfl

/-- Conversion is idempotent, whatever has happened in between: what a conversion gave, the same conversion gives
again, with the heap and the trace as they are. -/
theorem convertTo_of_convertTo {s s' : Store} (promised : w.KeepsPromises) (h : w.convertTo t v s = (.ok r, s'))
    (store : Store) : w.convertTo t r store = (.ok r, store) := by
  obtain ⟨-, -, -, -, gives⟩ := w.proper_convertTo t v s
  have fits : w.classes.satisfies r t := gives r (congrArg Prod.fst h) promised
  rw [convertTo_of_satisfies fits, posesAs_convertTo h]
  rfl

/-- A list of texts becomes an array of points, which the host makes of them, and stays it. -/
theorem convertTo_of_convertTo_points :
    let texts : Store := .ofHeap ⟨#[.items [.str "a", .str "b"]]⟩
    let points : Ty := .mk (.builtin .array) [.raw (.host 0)]
    let made : Value := .array 3 (.raw (.host 0))
    ∃ after, pointHost.convertTo points (.list 0) texts = (.ok made, after)
      ∧ after.heap.items 3 = [.object 1 (.host 0), .object 2 (.host 0)] ∧ after.trace.length = 2
      ∧ pointHost.convertTo points made after = (.ok made, after) := by
  intro texts points made
  have first : pointHost.convertTo points (.list 0) texts
      = (.ok made, (pointHost.convertTo points (.list 0) texts).2) := rfl
  exact ⟨_, first, rfl, rfl, convertTo_of_convertTo keepsPromises_pointHost first _⟩

end World

/-! ## Through a text and back -/

/-- The values that their text tells, within their class: ints, longs and truth values. -/
inductive Value.Spelled : Value → Prop
  | int (i : Int32) : Spelled (.int i)
  | long (l : Int64) : Spelled (.long l)
  | bool (b : Bool) : Spelled (.bool b)

/-- A decimal text has digits and perhaps a sign. -/
theorem isDigit_or_sign {n : Int} {c : Char} (h : c ∈ integerText n) : c.isDigit = true ∨ c = '-' := by
  cases n with
  | ofNat n => exact .inl (isDigit_of_mem_lastDigits h)
  | negSucc n =>
    rcases List.mem_cons.1 h with sign | digit
    · exact .inr sign
    · exact .inl (isDigit_of_mem_lastDigits digit)

/-- Decimal texts have no blanks. -/
theorem isBlank_integerText {n : Int} {c : Char} (h : c ∈ integerText n) : isBlank c = false := by
  rcases isDigit_or_sign h with digit | rfl
  · obtain ⟨low, high⟩ : 48 ≤ c.toNat ∧ c.toNat ≤ 57 := by
      simp only [Char.isDigit, Bool.and_eq_true, decide_eq_true_iff] at digit
      exact digit
    unfold isBlank
    simp only [Bool.or_eq_false_iff, Bool.and_eq_false_iff, beq_eq_false_iff_ne, decide_eq_false_iff_not]
    omega
  · rfl

/-- Decimal texts have no mark of a long. -/
theorem unmarked_integerText {n : Int} {c : Char} (h : c ∈ integerText n) : (c = 'L' || c = 'l') = false := by
  rcases isDigit_or_sign h with digit | rfl
  · have upper : c ≠ 'L' := by rintro rfl; cases digit
    have lower : c ≠ 'l' := by rintro rfl; cases digit
    simp [upper, lower]
  · rfl

/-- Nothing is dropped in front of a text without the characters that are dropped. -/
theorem dropWhile_of_none {p : Char → Bool} {cs : List Char} (clean : ∀ c ∈ cs, p c = false) :
    cs.dropWhile p = cs := by
  cases cs with
  | nil => rfl
  | cons c cs =>
    have kept : ¬ p c = true := by simp [clean c List.mem_cons_self]
    exact List.dropWhile_cons_of_neg kept

/-- Nothing is dropped behind it either. -/
theorem reverse_dropWhile_of_none {p : Char → Bool} {cs : List Char} (clean : ∀ c ∈ cs, p c = false) :
    (cs.reverse.dropWhile p).reverse = cs := by
  rw [dropWhile_of_none fun c mem => clean c (List.mem_reverse.1 mem), List.reverse_reverse]

/-- A decimal text is trimmed. -/
theorem trimmed_integerText (n : Int) : trimmed (integerText n) = integerText n := by
  unfold trimmed trimEnd
  rw [dropWhile_of_none fun _ => isBlank_integerText]
  exact reverse_dropWhile_of_none fun _ => isBlank_integerText

/-- The text of an int is read as the int. -/
theorem toInt_text (cs : Classes) (i : Int32) (s : Store) :
    toInt cs (.str (intText i.toInt)) s = (.ok (.int i), s) := by
  have read : intOfText? (trimmed (intText i.toInt).toList) = some i := by
    simp [intText, trimmed_integerText, intOfText?]
  unfold toInt
  simp only [read]
  rfl

/-- The text of a long is read as the long. -/
theorem toLong_text (cs : Classes) (l : Int64) (s : Store) :
    toLong cs (.str (intText l.toInt)) s = (.ok (.long l), s) := by
  have read : int64? ((trimmed (intText l.toInt).toList).reverse.dropWhile fun c => c = 'L' || c = 'l').reverse
      = some l := by
    have unmarked := reverse_dropWhile_of_none fun _ => unmarked_integerText (n := l.toInt)
    simp [intText, trimmed_integerText, unmarked]
  unfold toLong
  simp only [read]
  rfl

/-- The word of a truth value is read as the truth value. -/
theorem toBool_text (cs : Classes) (b : Bool) (s : Store) :
    toBool cs (.str (if b then "true" else "false")) s = (.ok (.bool b), s) := by
  cases b <;> rfl

namespace World

variable {w : World} {v r : Value}

/-- The store after a conversion to a class, which has made one value of another and left the heap as it is. -/
def recorded (target : ClassRef) (given made : Value) (s : Store) : Store :=
  { s with trace := .converted target given (.ok made) :: s.trace }

/-- Where the host has no conversion of its own, the built-in one runs and is recorded. -/
theorem convert_of_builtin {b : Builtin} {accepts : ClassRef → Bool} {run : Value → Act Value}
    (found : b.converter? w.classes = some ⟨accepts, run⟩) (plain : w.handlers.lookup (.builtin b) = none)
    (foreign : (v.isNull || w.classes.isSubclass v.classRef (.builtin b)) = false)
    (accepted : accepts v.classRef = true) {s : Store} (gives : run v s = (.ok r, s)) :
    w.convert v (.builtin b) s = (.ok r, recorded (.builtin b) v r s) := by
  have known : w.converter? (.builtin b) = some ⟨accepts, run⟩ := by
    unfold converter?
    rw [plain]
    exact found
  unfold convert
  rw [foreign, known]
  simp only [accepted, Bool.false_eq_true, if_false, if_true]
  unfold runConverter
  simp only [gives]
  rfl

/-- A value that is displayed alike in every heap is converted to its text. -/
theorem convert_string {text : String} (shown : ∀ heap : Heap, heap.text? w.classes v = some text)
    (plain : w.handlers.lookup (.builtin .string) = none)
    (foreign : (v.isNull || w.classes.isSubclass v.classRef (.builtin .string)) = false) (s : Store) :
    w.convert v (.builtin .string) s = (.ok (.str text), recorded (.builtin .string) v (.str text) s) := by
  refine convert_of_builtin rfl plain foreign rfl ?_
  show (Value.str <$> Act.textOf w.classes v) s = _
  rw [map_eq_pure_bind, bind_eq_bindCont, textOf_eq, shown]
  rfl

/-- A conversion to `String` loses nothing of an int, a long or a truth value: it succeeds with the text under which
the value is displayed, and the conversion of this text to the class of the value, at any later time, succeeds and gives
the value. Both leave the heap as it is. The host may have conversions to other classes and any classes of its own. -/
theorem convert_back_of_string (spelled : v.Spelled)
    (plain : ∀ c ∈ [.builtin .string, v.classRef], w.handlers.lookup c = none) :
    ∃ text, (∀ heap : Heap, heap.text? w.classes v = some text)
      ∧ (∀ s, w.convert v (.builtin .string) s = (.ok (.str text), recorded (.builtin .string) v (.str text) s))
      ∧ ∀ s, w.convert (.str text) v.classRef s = (.ok v, recorded v.classRef (.str text) v s) := by
  have there : w.handlers.lookup (.builtin .string) = none := plain _ List.mem_cons_self
  have back : w.handlers.lookup v.classRef = none := plain _ (List.mem_cons_of_mem _ List.mem_cons_self)
  -- the way there is the same for all three; the way back is each class's own reader
  cases spelled with
  | int i =>
    have shown (heap : Heap) : heap.text? w.classes (.int i) = some (intText i.toInt) := by
      simp [Heap.text?, Heap.textWithin]
    exact ⟨_, shown, convert_string shown there rfl,
      fun s => convert_of_builtin rfl back rfl rfl (toInt_text w.classes i s)⟩
  | long l =>
    have shown (heap : Heap) : heap.text? w.classes (.long l) = some (intText l.toInt) := by
      simp [Heap.text?, Heap.textWithin]
    exact ⟨_, shown, convert_string shown there rfl,
      fun s => convert_of_builtin rfl back rfl rfl (toLong_text w.classes l s)⟩
  | bool b =>
    have shown (heap : Heap) : heap.text? w.classes (.bool b) = some (if b then "true" else "false") := by
      simp [Heap.text?, Heap.textWithin]
    exact ⟨_, shown, convert_string shown there rfl,
      fun s => convert_of_builtin rfl back rfl rfl (toBool_text w.classes b s)⟩

/-- The smallest long is among them, in a world whose host makes points of texts. -/
theorem convert_back_of_string_smallestLong :
    ∃ text, (∀ heap : Heap, heap.text? pointHost.classes (.long Int64.minValue) = some text)
      ∧ (∀ s, pointHost.convert (.long Int64.minValue) (.builtin .string) s
        = (.ok (.str text), recorded (.builtin .string) (.long Int64.minValue) (.str text) s))
      ∧ ∀ s, pointHost.convert (.str text) (.builtin .long) s
        = (.ok (.long Int64.minValue), recorded (.builtin .long) (.str text) (.long Int64.minValue) s) :=
  convert_back_of_string (.long _) (by decide)

end World

end HostExpr
