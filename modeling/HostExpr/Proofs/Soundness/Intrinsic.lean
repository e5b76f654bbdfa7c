import HostExpr.Proofs.Site.Method
import HostExpr.Proofs.Soundness.Steps

/-!
# What the operations of the built-in classes give

Each operation gives values of one class, unless it takes them out of a container. The members of the built-in classes
declare what their operations give: `covered_of_mem_methods` goes through the table.
-/

namespace HostExpr

open Classes

namespace Gives

variable {ε σ α β : Type} {s : σ}

/-- What is known once a first step has given something stays known. -/
theorem first {x : ExceptT ε (StateM σ) α} {f : α → ExceptT ε (StateM σ) β} {P : Prop} (h : Gives x s fun _ _ => P) :
    Gives (x >>= f) s fun _ _ => P :=
  .bind (h.weaken fun _ _ known _ _ _ => known)

end Gives

namespace Intrinsic

/-- The class of what an operation gives; of what comes out of a container none is known. -/
def result? : Intrinsic → Option Builtin
  | listGet | listSet | listRemove | mapGet | mapPut | mapRemove => none
  | listClear => some .null
  | objectEquals | stringIsEmpty | stringContains | stringStartsWith | stringEndsWith | stringEqualsIgnoreCase
  | listIsEmpty | listAdd | listContains | mapIsEmpty | mapContainsKey => some .boolean
  | stringLength | stringIndexOf | numberIntValue | integerParse | integerValueOf | listSize | listIndexOf | mapSize
  | arrayLength => some .integer
  | numberLongValue | longParse => some .long
  | numberDoubleValue | doubleParse => some .double
  | objectToString | stringToUpperCase | stringToLowerCase | stringTrim | stringSubstringFrom | stringSubstring
  | stringConcat | stringReplace | stringValueOf | classGetName | classGetSimpleName => some .string
  | listNew | mapKeySet | mapValues => some .list
  | mapNew => some .map

/-- The class of the receiver that an operation on texts, lists or maps asks for. -/
def owner? : Intrinsic → Option Builtin
  | stringLength | stringIsEmpty | stringToUpperCase | stringToLowerCase | stringTrim | stringSubstringFrom
  | stringSubstring | stringContains | stringStartsWith | stringEndsWith | stringIndexOf | stringConcat | stringReplace
  | stringEqualsIgnoreCase => some .string
  | listSize | listIsEmpty | listGet | listAdd | listSet | listRemove | listContains | listIndexOf | listClear =>
    some .list
  | mapSize | mapIsEmpty | mapGet | mapPut | mapContainsKey | mapRemove | mapKeySet | mapValues => some .map
  | _ => none

variable (cs : Classes) {op : Intrinsic} {b : Builtin} (receiver : Value) (args : List Value) (store : Store)

theorem gives_strArg (method : String) :
    Gives (strArg cs method receiver) store fun _ _ => receiver.classRef = .builtin .string := by
  cases receiver with
  | str s => exact .pure rfl
  | _ => exact .throw _

theorem gives_listArg (method : String) :
    Gives (listArg cs method receiver) store fun _ _ => receiver.classRef = .builtin .list := by
  cases receiver with
  | list h => exact .pure rfl
  | _ => exact .throw _

theorem gives_mapArg (method : String) :
    Gives (mapArg cs method receiver) store fun _ _ => receiver.classRef = .builtin .map := by
  cases receiver with
  | map h => exact .pure rfl
  | _ => exact .throw _

/-- An operation on texts, lists or maps gives something only if the receiver is one. -/
theorem classRef_receiver_run (h : op.owner? = some b) :
    Gives (op.run cs receiver args) store fun _ _ => receiver.classRef = .builtin b := by
  have text {f : String → Act Value} (method : String) :
      Gives (strArg cs method receiver >>= f) store fun _ _ => receiver.classRef = .builtin .string :=
    .first (gives_strArg cs receiver store method)
  have list {f : Handle → Act Value} (method : String) :
      Gives (listArg cs method receiver >>= f) store fun _ _ => receiver.classRef = .builtin .list :=
    .first (gives_listArg cs receiver store method)
  have map {f : Handle → Act Value} (method : String) :
      Gives (mapArg cs method receiver >>= f) store fun _ _ => receiver.classRef = .builtin .map :=
    .first (gives_mapArg cs receiver store method)
  cases op <;> cases h
  all_goals first
    | exact text _
    | exact list _
    | exact map _

/-- A number that a text spells is one of the kind that is read. -/
theorem classRef_parsed {ι : Type} {make : ι → Value} (h : ∀ n, (make n).classRef = .builtin b) (method s : String)
    (read : List Char → Option ι) :
    Gives (parsed method s fun cs => (read cs).map make) store fun v _ => v.classRef = .builtin b := by
  unfold parsed
  split
  · rename_i v found
    obtain ⟨n, -, rfl⟩ := Option.map_eq_some_iff.1 found
    exact .pure (h n)
  · exact .throw _

theorem classRef_positionValue (n : Option Nat) : (positionValue n).classRef = .builtin .integer := by
  cases n <;> rfl

/-- What an operation gives is of the class that is known of it. -/
theorem classRef_run (h : op.result? = some b) :
    Gives (op.run cs receiver args) store fun v _ => v.classRef = .builtin b := by
  cases op <;> cases h
  -- operations that read their arguments, and then give a text, a boolean or a number
  case stringLength | stringIsEmpty | stringToUpperCase | stringToLowerCase | stringTrim | objectToString
    | stringValueOf | integerValueOf => exact .bind fun _ _ _ => .pure rfl
  case stringContains | stringStartsWith | stringEndsWith | stringConcat | listSize | listIsEmpty | listAdd | listClear
    | mapSize | mapIsEmpty | mapContainsKey => exact .bind fun _ _ _ => .bind fun _ _ _ => .pure rfl
  case stringReplace => exact .bind fun _ _ _ => .bind fun _ _ _ => .bind fun _ _ _ => .pure rfl
  case objectEquals => exact .map fun _ _ _ => rfl
  case stringIndexOf => exact .bind fun _ _ _ => .bind fun _ _ _ => .pure (classRef_positionValue _)
  case listContains => exact .bind fun _ _ _ => .bind fun _ _ _ => .bind fun _ _ _ => .pure rfl
  case listIndexOf =>
    exact .bind fun _ _ _ => .bind fun _ _ _ => .map fun _ _ _ => classRef_positionValue _
  case stringSubstring =>
    refine .bind fun _ _ _ => .bind fun _ _ _ => .bind fun _ _ _ => ?_
    dsimp only
    split
    · exact .bind fun _ _ _ => .pure rfl
    · exact .pure rfl
  case stringSubstringFrom =>
    refine .bind fun _ _ _ => .bind fun _ _ _ => ?_
    dsimp only
    split
    · exact .bind fun _ _ _ => .pure rfl
    · exact .bind fun _ _ _ => .pure rfl
  case stringEqualsIgnoreCase =>
    refine .bind fun _ _ _ => ?_
    split
    · exact .pure rfl
    · exact .pure rfl
  case integerParse | longParse | doubleParse => exact .bind fun _ store _ => classRef_parsed store (fun _ => rfl) _ _ _
  case mapKeySet | mapValues => exact .bind fun _ _ _ => .bind fun _ store _ => World.classRef_newList _ store
  case listNew => exact World.classRef_newList [] store
  case mapNew => exact World.classRef_newMap [] store
  -- operations that look at the receiver itself
  case numberIntValue | numberLongValue | numberDoubleValue =>
    cases receiver with
    | int _ | long _ | double _ => exact .pure rfl
    | _ => exact .throw _
  case arrayLength =>
    cases receiver with
    | array h item => exact .bind fun _ _ _ => .pure rfl
    | _ => exact .throw _
  case classGetName | classGetSimpleName =>
    cases receiver with
    | cls c => exact .pure rfl
    | _ => exact .throw _

end Intrinsic

/-! ## What the built-in classes declare -/

/-- The signature type is that of what an operation gives. A type variable of a list or a map says nothing, since these
show no type arguments when a program runs. -/
def TypeRef.covers (op : Intrinsic) : TypeRef → Bool
  | .self => op.owner?.isSome && op.owner? = op.result?
  | .var _ => op.owner? = some .list || op.owner? = some .map
  | .cls (.builtin b) _ => op.result? = some b
  | .cls (.host _) _ => false

/-- Code runs an operation, and the signature type is that of what it gives. -/
def TypeRef.coversCode (t : TypeRef) : Code → Bool
  | .intrinsic op => t.covers op
  | _ => false

/-- A static operation asks for no receiver. -/
def Code.isStatic : Code → Bool
  | .intrinsic op => op.owner?.isNone
  | _ => false

namespace Builtin

theorem covered_of_mem_methods (b : Builtin) : ∀ m ∈ b.methods, m.result.coversCode m.code := by
  cases b <;> decide

theorem covered_of_mem_staticMethods (b : Builtin) :
    ∀ m ∈ b.staticMethods, m.result.coversCode m.code ∧ m.code.isStatic := by
  cases b <;> decide

/-- The only property of a built-in class is the length of arrays. -/
theorem covered_of_mem_properties {b : Builtin} {p : Property} (h : p ∈ b.toDef.properties) {get : Code}
    {set : Option Code} (hk : p.kind = .computed (some get) set) : p.type.coversCode get := by
  cases b with
  | array =>
    obtain rfl := List.mem_singleton.1 h
    cases hk
    rfl
  | _ => cases h

end Builtin

/-- Of a type variable of a receiver that shows no type arguments nothing is known. -/
theorem Classes.isDynamic_resolve_var {cs : Classes} {owner : Ty} (h : owner.args = []) (name : String) :
    (cs.resolve owner (.var name)).isDynamic := by
  unfold resolve TypeRef.resolve
  split
  · rw [Ty.argOr, h]
    rfl
  · rfl

namespace World

variable {w : World} {code : Code} {t : TypeRef} (args : List Value) (store : Store)

/-- An operation gives what its signature type is for the receiver. -/
theorem suits_covered (h : t.coversCode code) (receiver : Value) :
    Gives (w.invoke code receiver args) store fun v _ =>
      w.classes.suits v (w.classes.resolve receiver.runtimeType t) := by
  cases code with
  | initSlots slots => cases h
  | host id => cases h
  | intrinsic op =>
    refine gives_invoke ?_
    have made {b : Builtin} (hb : op.result? = some b) := op.classRef_run w.classes receiver args store hb
    have asked {b : Builtin} (hb : op.owner? = some b) := op.classRef_receiver_run w.classes receiver args store hb
    cases t with
    | cls c as =>
      cases c with
      | host n => cases h
      | builtin b => exact (made (of_decide_eq_true h)).weaken fun v _ same => suits_of_eq same
    | self =>
      obtain ⟨known, same⟩ := Bool.and_eq_true_iff.1 h
      obtain ⟨b, hb⟩ := Option.isSome_iff_exists.1 known
      refine ((asked hb).and (made ((of_decide_eq_true same).symm.trans hb))).weaken fun v _ given => suits_of_eq ?_
      show v.classRef = receiver.runtimeType.cls
      rw [receiver.cls_runtimeType, given.1, given.2]
    | var name =>
      -- lists and maps show no type arguments to a run, so that a type argument of theirs is unknown to it
      have container : Gives (op.run w.classes receiver args) store fun _ _ => receiver.runtimeType.args = [] := by
        rcases Bool.or_eq_true_iff.1 h with owner | owner
        · refine (asked (of_decide_eq_true owner)).weaken fun _ _ list => ?_
          cases receiver <;> first | rfl | cases list
        · refine (asked (of_decide_eq_true owner)).weaken fun _ _ map => ?_
          cases receiver <;> first | rfl | cases map
      exact container.weaken fun v _ none => suits_of_isDynamic (isDynamic_resolve_var none name) v

/-- A static operation gives what its signature type is, for whatever class it is called on. -/
theorem suits_static (h : t.coversCode code) (static : code.isStatic) (receiver : Value) (owner : Ty) :
    Gives (w.invoke code receiver args) store fun v _ => w.classes.suits v (w.classes.resolve owner t) := by
  cases code with
  | initSlots slots => cases h
  | host id => cases h
  | intrinsic op =>
    have none : op.owner? = none := Option.isNone_iff_eq_none.1 static
    cases t with
    | cls c as =>
      cases c with
      | host n => cases h
      | builtin b =>
        have made := op.classRef_run w.classes receiver args store (of_decide_eq_true h)
        exact gives_invoke (made.weaken fun v _ same => suits_of_eq same)
    | self => simp [TypeRef.coversCode, TypeRef.covers, none] at h
    | var name => simp [TypeRef.coversCode, TypeRef.covers, none] at h

end World

end HostExpr
