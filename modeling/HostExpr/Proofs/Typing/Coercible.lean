import HostExpr.Proofs.Engine.Calls
import HostExpr.Proofs.Typing.Steps

/-!
# Strong typing and conversion

Under strong typing an analysis rejects what cannot be made to fit the type that it is declared, assigned or put into
an array with. It knows the type of a value and asks for classes alone, while a run looks at the value and at its
items. What a run converts, the analysis does not reject: `admits_of_convertTo`.
-/

namespace HostExpr

open Typed Analysis

namespace World

variable {w : World} {v r : Value} {s s' : Store}

/-- A value that was made one of a class can be made one of it. -/
theorem canConvert_of_convert {c : ClassRef} (h : w.convert v c s = (.ok r, s')) : w.canConvert v.classRef c := by
  unfold canConvert
  obtain ⟨below, -⟩ | ⟨converter, found, accepted, -⟩ := of_convert_ok h
  · simp [below]
  · simp [found, accepted]

/-- With the built-in conversion to arrays, null, arrays and lists can be made arrays. -/
theorem canConvert_array (sequences : w.handlers.lookup (.builtin .array) = none) {b : Builtin}
    (given : b = .null ∨ b = .array ∨ b = .list) : w.canConvert (.builtin b) (.builtin .array) := by
  unfold canConvert
  obtain rfl | rfl | rfl := given
  · simp [Classes.isSubclass]
  · simp [Classes.isSubclass_refl]
  · simp [converter?, sequences, Builtin.converter?, isSequence]

/-- **What converts can be coerced.** Where the conversion to arrays is the built-in one, a value that was made to fit a
type is of a type that can be coerced to it. -/
theorem canCoerce_of_convertTo (sequences : w.handlers.lookup (.builtin .array) = none) {t : Ty}
    (h : w.convertTo t v s = (.ok r, s')) : w.canCoerce v.runtimeType t := by
  have of_class (possible : w.canConvert v.classRef t.cls) : w.canCoerce v.runtimeType t := by
    simp [canCoerce, possible]
  unfold convertTo at h
  split at h
  · cases v with
    | null => exact of_class (canConvert_array sequences (by simp))
    | array _ _ => exact of_class (canConvert_array sequences (by simp))
    | list _ => exact of_class (canConvert_array sequences (by simp))
    | _ => cases h
  · by_cases fits : w.classes.satisfies v t
    · exact canCoerce_of_satisfies fits
    · rw [if_neg fits] at h
      exact of_class (canConvert_of_convert h)

end World

namespace Context

variable {ctx : Context} {source target : Ty}

/-- The analysis lets what is of one type through where another one is asked for: the check finds nothing wrong, and
so a declaration, an assignment, a compound assignment and an item of an array come to what they are without it. -/
structure Admits (ctx : Context) (source target : Ty) : Prop where
  check (span : Span) : Tells (ctx.checkCoercion source target span) fun _ => ()
  declaration {d : Syntax.Declarator} {init : Expr} {a b : AnalysisState}
    (analyzed : ctx.expr? d.init (some target) a = (.ok (some init), b)) (typed : init.type = source) :
    ∃ c, ctx.declarator (some target) d a
      = (.ok (.declare ⟨target, d.span⟩ d.name (some target) (some init) !b.scopes.isEmpty), c)
  assignment {left right : Syntax.Expr} {value place : Expr} {a b c : AnalysisState} (span : Span) (hint : Option Ty)
    (analyzed : ctx.expr right none a = (.ok value, b)) (typed : value.type = source)
    (found : ctx.assignedTarget left (ctx.expr left none) value.type b = (.ok (place, some target), c)) :
    ctx.expr (.assign span left .plain right) hint a
      = (.ok (.assign ⟨target, span⟩ place .plain value (some target)), c)
  compound {op : ArithOp} {left right : Syntax.Expr} {value place : Expr} {a b c : AnalysisState} (span : Span)
    (hint : Option Ty) (found : ctx.expr left none a = (.ok place, b)) (assignable : place.isAssignable)
    (stores : storedType? place.type = some target) (analyzed : ctx.expr right none b = (.ok value, c))
    (typed : ctx.arithType op place.type value.type span c = (.ok source, c)) :
    ctx.expr (.assign span left (.compound op) right) hint a
      = (.ok (.assign ⟨target, span⟩ place (.compound op) value (some target)), c)
  item {e : Syntax.Expr} {es : List Syntax.Expr} {node : Expr} {a b : AnalysisState}
    (analyzed : ctx.expr e (some target) a = (.ok node, b)) (typed : node.type = source) :
    ctx.arrayItems target (e :: es) a = ((node :: ·) <$> ctx.arrayItems target es) b

/-- A declaration of a name always succeeds, and tells whether a block is open. -/
theorem ok_declareName (name : String) (type : Ty) (a : AnalysisState) :
    ∃ b, declareName name type a = (.ok !a.scopes.isEmpty, b) := by
  have told : Tells (get : Analysis AnalysisState) id := fun _ => rfl
  unfold declareName
  rw [told.bind_apply, id]
  cases a.scopes.isEmpty with
  | true => exact ⟨_, rfl⟩
  | false => exact ⟨_, rfl⟩

/-- The check passes what can be coerced. -/
theorem tells_checkCoercion (possible : ctx.world.canCoerce source target) (span : Span) :
    Tells (ctx.checkCoercion source target span) fun _ => () := by
  intro a
  unfold checkCoercion
  have told : Tells strong fun a => a.env.strong := fun _ => rfl
  rw [told.bind_apply]
  simp only [possible, Bool.not_true, Bool.and_false, Bool.false_eq_true, if_false]
  rfl

/-- What can be coerced is let through. -/
theorem admits_of_canCoerce (possible : ctx.world.canCoerce source target) : ctx.Admits source target where
  check span := tells_checkCoercion possible span
  -- in each place the only check that depends on the two types is the one for a coercion
  declaration analyzed typed := by
    subst typed
    unfold declarator
    rw [bind_of_ok analyzed]
    dsimp only
    rw [(tells_checkCoercion possible _).bind_apply]
    obtain ⟨c, declared⟩ := ok_declareName _ (declaredType (some target) (some _)) _
    rw [bind_of_ok declared]
    exact ⟨_, rfl⟩
  assignment span hint analyzed typed found := by
    subst typed
    unfold expr
    rw [bind_of_ok analyzed, bind_of_ok found]
    unfold plainAssignment
    dsimp only
    rw [(tells_checkCoercion possible _).bind_apply]
    rfl
  compound {_ _ _ _ place _ _ c} span hint found assignable stores analyzed typed := by
    unfold expr
    rw [bind_of_ok found, bind_of_ok analyzed]
    unfold compoundAssignment
    have passed : ctx.checkAssignable place place.span c = (.ok (), c) := by
      unfold checkAssignable
      rw [if_pos assignable]
      rfl
    rw [bind_of_ok passed, bind_of_ok typed]
    dsimp only
    rw [stores]
    dsimp only
    rw [(tells_checkCoercion possible _).bind_apply]
    rfl
  item analyzed typed := by
    subst typed
    rw [arrayItems]
    rw [bind_of_ok analyzed, (tells_checkCoercion possible _).bind_apply]
    rfl

/-- **Strong typing rejects nothing that a run converts.** Where the conversion to arrays is the built-in one, whatever
the host converts besides: if a value can be made to fit a type, then the type of the value can be coerced to it, and
what is of that type is let through where the other one is asked for. -/
theorem admits_of_convertTo (sequences : ctx.world.handlers.lookup (.builtin .array) = none) {v r : Value}
    {s s' : Store} (h : ctx.world.convertTo target v s = (.ok r, s')) :
    ctx.world.canCoerce v.runtimeType target ∧ ctx.Admits v.runtimeType target :=
  have possible := World.canCoerce_of_convertTo sequences h
  ⟨possible, admits_of_canCoerce possible⟩

/-- The host makes points of the texts in a list, and the analysis takes a list for an array of points. -/
theorem admits_of_convertTo_points :
    let ctx : Context := ⟨pointHost, .builtin, [], []⟩
    let points : Ty := .mk (.builtin .array) [.raw (.host 0)]
    let texts : Store := .ofHeap ⟨#[.items [.str "a", .str "b"]]⟩
    ∃ after, pointHost.convertTo points (.list 0) texts = (.ok (.array 3 (.raw (.host 0))), after)
      ∧ ctx.Admits (.raw (.builtin .list)) points := by
  intro ctx points texts
  have converted : pointHost.convertTo points (.list 0) texts
      = (.ok (.array 3 (.raw (.host 0))), (pointHost.convertTo points (.list 0) texts).2) := rfl
  have admitted : _ ∧ ctx.Admits _ points := admits_of_convertTo rfl converted
  exact ⟨_, converted, admitted.2⟩

end Context

end HostExpr
