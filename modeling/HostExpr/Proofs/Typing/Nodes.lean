import HostExpr.Proofs.Typing.Made

/-!
# The nodes of expressions

The analysis of an expression makes all parts of its typed form. Each lemma takes the nodes that were made for the
operands and gives those of the whole; the induction over the source puts them together.
-/

namespace HostExpr

namespace Context

open Typed Analysis

variable {ctx : Context} {a₀ a : AnalysisState}

/-! ## Names -/

theorem made_inputNode {name : String} (known : a.env.Knows name) (type : Ty) (span : Span) :
    Yields (inputNode name type span) a fun r b => ctx.Made a r.parts b := by
  refine .bind fun site c taken => .pure ?_
  exact (Made.refl ctx a).access taken (.input ⟨type, span⟩ name site) rfl known

theorem made_unknownName (name : String) (span : Span) :
    Yields (unknownName name span) a fun r b => ctx.Made a r.parts b := by
  unfold unknownName
  refine .env ?_
  split
  · exact .fail _ _
  · split
    · -- by the strictness a name that nothing knows is declared or becomes an input
      refine .bind fun _ c declared => .pure ?_
      have kept := (Made.refl ctx a).modified (fun _ hn => hn.declare name .object)
        (fun _ hn => Environment.has_declare hn name .object) declared
      exact kept.node (.declared ⟨.object, span⟩ name) rfl trivial
    · refine .bind fun _ c added => ?_
      have kept := (Made.refl ctx a).modified (fun _ hn => hn.addInput name .object)
        (fun _ hn => Environment.has_addInput hn name .object) added
      have known : c.env.Knows name := by
        cases added
        exact a.env.knows_addInput name .object
      intro r b read
      exact (kept.trans (made_inputNode known _ _ read)).sublist (List.sublist_append_right _ _)

theorem made_thisNode (ctx : Context) (env : Environment) (span : Span) (a : AnalysisState) :
    ctx.Made a (thisNode env span).parts a := (Made.refl ctx a).node _ rfl trivial

theorem made_classNode (ctx : Context) (c : ClassRef) (span : Span) (a : AnalysisState) :
    ctx.Made a (classNode c span).parts a := (Made.refl ctx a).node _ rfl rfl

theorem made_freeName (name : String) (span : Span) :
    Yields (ctx.freeName name span) a fun r b => ctx.Made a r.parts b := by
  unfold freeName
  refine .env ?_
  split
  · exact .pure (made_thisNode ctx _ span a)
  · split
    · exact .pure (made_classNode ctx _ span a)
    · split
      · refine .bind fun _ c remembered => .bind fun site d taken => .pure ?_
        have root := (made_thisNode ctx a.env span a).remembered remembered
        exact root.access taken (.property _ _ name site) rfl trivial
      · split
        · exact .pure (made_classNode ctx _ span a)
        · exact made_unknownName name span

theorem made_ident (name : String) (span : Span) :
    Yields (ctx.ident name span) a fun r b => ctx.Made a r.parts b := by
  unfold ident
  refine .get ?_
  split
  · exact .pure ((Made.refl ctx a).node (.declared _ name) rfl trivial)
  · split
    · refine .bind fun _ c remembered => .pure ?_
      exact ((Made.refl ctx a).remembered remembered).node (.declared _ name) rfl trivial
    · split
      · rename_i type found
        refine .bind fun _ c remembered => ?_
        have kept := (Made.refl ctx a).remembered remembered
        have known : a.env.Knows name := Or.inl (by rw [Table.has, found]; rfl)
        intro r b read
        exact (kept.trans (made_inputNode (kept.known name known) _ _ read)).sublist (List.sublist_append_right _ _)
      · exact made_freeName name span

/-! ## Members and calls -/

theorem made_property {receiver : Expr} (given : ctx.Made a₀ receiver.parts a) (name : String) (span : Span) :
    Yields (ctx.property receiver name span) a fun r b => ctx.Made a₀ r.parts b := by
  unfold property
  dsimp only
  split
  · -- a static field stands for the whole access, and its receiver is left out
    refine .bind fun _ c remembered => .pure ?_
    exact ((given.remembered remembered).sublist (List.nil_sublist _)).node (.staticField _ _ name) rfl trivial
  · refine .bind fun type c typed => .bind fun _ d remembered => .bind fun site d' taken => .pure ?_
    have operands := (given.checked (ctx.asks_propertyType _ name span) typed).remembered remembered
    exact operands.access taken (.property _ receiver name site) rfl trivial

theorem made_propertyChain {e : Expr} (given : ctx.Made a₀ e.parts a) (span : Span) (names : List String) :
    Yields (ctx.propertyChain span e names) a fun r b => ctx.Made a₀ r.parts b := by
  induction names generalizing e a with
  | nil => exact .pure given
  | cons name names ih =>
    unfold propertyChain
    exact .bind fun e' c first => ih (made_property given name span first)

theorem made_methodCall {receiver : Expr} {args : List Expr}
    (given : ctx.Made a₀ (receiver.parts ++ Expr.partsAll args) a) (name : String) (span : Span) :
    Yields (ctx.methodCall receiver name args span) a fun r b => ctx.Made a₀ r.parts b := by
  unfold methodCall
  refine .bind fun type c typed => .bind fun _ d remembered => .bind fun site d' taken => .pure ?_
  have operands := (given.checked (ctx.asks_callType receiver name _ span) typed).remembered remembered
  exact operands.access taken (.methodCall _ receiver name args site) rfl trivial

/-- A function that is named is there, at its place. -/
theorem getElem?_of_functionNamed? {env : Environment} {name : String} {i : Nat} {f : Function}
    (h : ctx.functionNamed? env name = some (i, f)) : ctx.world.functions[i]? = some f := by
  unfold functionNamed? at h
  obtain ⟨j, -, h⟩ := Option.bind_eq_some_iff.1 h
  obtain ⟨g, hg, h⟩ := Option.map_eq_some_iff.1 h
  cases h
  exact hg

theorem made_callFunction {args : List Expr} (given : ctx.Made a₀ (Expr.partsAll args) a) (name : String)
    (span : Span) : Yields (ctx.callFunction name args span) a fun r b => ctx.Made a₀ r.parts b := by
  unfold callFunction
  refine .env ?_
  split
  · rename_i i f named
    dsimp only
    split
    · exact .fail _ _
    · rename_i fits
      refine .pure (given.node (.functionCall _ i args) rfl ?_)
      intro f' hf'
      rw [getElem?_of_functionNamed? named] at hf'
      cases hf'
      obtain ⟨params, hp, hl⟩ := Overload.exists_length_of_resolve fits
      obtain rfl := List.mem_singleton.1 hp
      rw [hl, List.length_map]
  · exact made_methodCall ((made_thisNode ctx _ span a₀).trans given) name span

theorem made_callNamed {args : List Expr} (given : ctx.Made a₀ (Expr.partsAll args) a) (name : String)
    (span : Span) : Yields (ctx.callNamed name args span) a fun r b => ctx.Made a₀ r.parts b := by
  unfold callNamed
  split
  · rename_i value target
    have both : Expr.partsAll [value, target] = value.parts ++ target.parts := by
      rw [Expr.partsAll_cons, Expr.partsAll_cons, Expr.partsAll, List.append_nil]
    rw [both] at given
    exact .pure (given.node (conversionNode value target span) rfl trivial)
  · exact made_callFunction given name span

theorem made_index {receiver position : Expr} (given : ctx.Made a₀ (receiver.parts ++ position.parts) a)
    (span : Span) : Yields (ctx.index receiver position span) a fun r b => ctx.Made a₀ r.parts b := by
  unfold index
  refine .bind fun type c typed => .bind fun _ d remembered => .bind fun site d' taken => .pure ?_
  have operands := (given.checked (ctx.asks_indexType _ span) typed).remembered remembered
  exact operands.access taken (.index _ receiver position site) rfl trivial

/-- A constructor that is chosen is one of the class, and takes as many arguments as there are. -/
theorem yields_chosenConstructor (type : Ty) (args : List Ty) (span : Span) :
    Yields (ctx.chosenConstructor type args span) a fun chosen _ => ∀ i, chosen = some i →
      ∃ m, (ctx.classes.get type.cls).constructors[i]? = some m ∧ m.arity = args.length := by
  unfold chosenConstructor
  dsimp only
  split
  · exact .pure fun i hi => by cases hi
  · split
    · rename_i j coerced resolved
      refine .pure fun i hi => ?_
      cases hi
      -- what is chosen takes as many arguments as there are
      have chosen : j ∈ (ctx.resolveOverload
          ((ctx.classes.get type.cls).constructors.map (ctx.classes.paramTypes type)) args).chosen := by
        rw [resolved]
        exact List.mem_singleton_self j
      obtain ⟨params, hp, hl, -⟩ := Overload.of_chosen_resolve chosen
      rw [List.getElem?_map] at hp
      obtain ⟨m, hm, rfl⟩ := Option.map_eq_some_iff.1 hp
      refine ⟨m, hm, ?_⟩
      rw [← hl, Classes.paramTypes, List.length_map, Method.arity]
    · exact .pure fun i hi => by cases hi
    · exact .fail _ _
    · exact .fail _ _

theorem made_construct {args : List Expr} (given : ctx.Made a₀ (Expr.partsAll args) a) (type : Ty) (span : Span) :
    Yields (ctx.construct type args span) a fun r b => ctx.Made a₀ r.parts b := by
  unfold construct
  refine .bind fun chosen c choice => .bind fun _ d remembered => .pure ?_
  have operands := (given.checked (ctx.asks_chosenConstructor type _ span) choice).remembered remembered
  refine operands.node (.construct _ type.cls args chosen) rfl fun i hi => ?_
  obtain ⟨m, hm, arity⟩ := yields_chosenConstructor type _ span choice i hi
  exact ⟨m, hm, by rw [arity, List.length_map]⟩

/-! ## Containers -/

theorem made_inlineList {items : List Expr} (given : ctx.Made a₀ (Expr.partsAll items) a) (span : Span) :
    Yields (ctx.inlineList items span) a fun r b => ctx.Made a₀ r.parts b := by
  unfold inlineList
  exact .bind fun _ c remembered => .pure ((given.remembered remembered).node (.inlineList _ items) rfl trivial)

theorem made_inlineMap {entries : List (Expr × Expr)} (given : ctx.Made a₀ (Expr.partsEntries entries) a)
    (span : Span) : Yields (ctx.inlineMap entries span) a fun r b => ctx.Made a₀ r.parts b := by
  unfold inlineMap
  exact .bind fun _ c remembered => .pure ((given.remembered remembered).node (.inlineMap _ entries) rfl trivial)

/-! ## Assignment -/

theorem made_assignedName (name : String) (span : Span) (value : Ty) :
    Yields (ctx.assignedName name span value) a fun r b => ctx.Made a r.1.parts b := by
  unfold assignedName
  refine .get ?_
  split
  · exact .pure ((Made.refl ctx a).node (.declared _ name) rfl trivial)
  · split
    · exact .pure ((Made.refl ctx a).node (.declared _ name) rfl trivial)
    · split
      · rename_i type found
        have known : a.env.Knows name := Or.inl (by rw [Table.has, found]; rfl)
        exact .bind fun node c read => .pure (made_inputNode known _ _ read)
      · split
        · refine .bind fun target c named => .bind fun _ d assignable => .pure ?_
          exact (made_ident name span named).checked (ctx.asks_checkAssignable _ _) assignable
        · refine .bind fun _ c declared => .pure ?_
          have kept := (Made.refl ctx a).modified (fun _ hn => hn.declare name _)
            (fun _ hn => Environment.has_declare hn name _) declared
          exact kept.node (.declared _ name) rfl trivial

theorem made_checkedTarget {analyzed : Analysis Expr} (given : Yields analyzed a fun r b => ctx.Made a r.parts b)
    (span : Span) : Yields (ctx.checkedTarget analyzed span) a fun r b => ctx.Made a r.1.parts b := by
  refine .bind fun node c made => .bind fun _ d writable => .bind fun _ d' assignable => .pure ?_
  have made := (given made).checked (ctx.asks_checkWritable node span) writable
  exact made.checked (ctx.asks_checkAssignable node _) assignable

theorem made_assignedTarget (target : Syntax.Expr) {analyzed : Analysis Expr} (value : Ty)
    (given : Yields analyzed a fun r b => ctx.Made a r.parts b) :
    Yields (ctx.assignedTarget target analyzed value) a fun r b => ctx.Made a r.1.parts b := by
  obtain ⟨span, name, rfl⟩ | read | refused := assignedTarget_cases target
  · exact made_assignedName name span value
  · rw [read]
    exact made_checkedTarget given _
  · rw [refused]
    exact .fail _ _

/-- A target that stores a value as it comes is a name that was no variable before, or nothing is known of what it
holds. -/
def Opening (a : AnalysisState) (assigned : Expr × Option Ty) : Prop :=
  assigned.2 = none → ∀ name ∈ assigned.1.typedName?, ¬ a.env.vars.has name

theorem Opening.of_stored (a : AnalysisState) (target : Expr) : Opening a (target, storedType? target.type) := by
  intro stored name hn
  have dynamic : target.type.isDynamic := by
    unfold storedType? at stored
    dsimp only at stored
    split at stored
    · assumption
    · cases stored
  cases target with
  | declared i name' =>
    have static := (Expr.of_typedName? hn).2
    rw [show i.type.isDynamic = true from dynamic] at static
    cases static
  | _ => cases hn

theorem opening_assignedName (name : String) (span : Span) (value : Ty) :
    Yields (ctx.assignedName name span value) a fun r _ => Opening a r := by
  unfold assignedName
  refine .get ?_
  split
  · exact .pure (.of_stored a _)
  · split
    · exact .pure (.of_stored a _)
    · rename_i unknown
      split
      · refine .bind fun node c read => .pure ?_
        obtain ⟨site, d, -, made⟩ := bind_ok read
        obtain ⟨rfl, -⟩ := pure_ok made
        exact .of_stored a _
      · split
        · exact .bind fun target c _ => .bind fun _ d _ => .pure (.of_stored a target)
        · refine .bind fun _ c _ => .pure fun _ other ho known => ?_
          rw [(Expr.of_typedName? ho).1, Table.has] at known
          obtain ⟨type, found⟩ := Option.isSome_iff_exists.1 known
          exact unknown type found

theorem opening_assignedTarget (target : Syntax.Expr) (analyzed : Analysis Expr) (value : Ty) :
    Yields (ctx.assignedTarget target analyzed value) a fun r _ => Opening a r := by
  obtain ⟨span, name, rfl⟩ | read | refused := assignedTarget_cases target
  · exact opening_assignedName name span value
  · rw [read]
    exact .bind fun node _ _ => .bind fun _ _ _ => .bind fun _ _ _ => .pure (.of_stored a node)
  · rw [refused]
    exact .fail _ _

theorem made_plainAssignment {value target : Expr} (given : ctx.Made a₀ (value.parts ++ target.parts) a)
    {stored : Option Ty} (opening : Opening a₀ (target, stored)) (span : Span) :
    Yields (ctx.plainAssignment value target stored span) a fun r b => ctx.Made a₀ r.parts b := by
  -- the value was analyzed before the target
  have operands := given.perm List.perm_append_comm
  unfold plainAssignment
  cases stored with
  | none => exact .pure (operands.node (.assign ⟨value.type, span⟩ target .plain value none) rfl (opening rfl))
  | some type =>
    have node := operands.node (.assign ⟨type, span⟩ target .plain value (some type)) rfl trivial
    exact .bind fun _ c checked => .pure (node.checked (ctx.asks_checkCoercion _ _ _) checked)

theorem made_compoundAssignment {target value : Expr} (given : ctx.Made a₀ (target.parts ++ value.parts) a)
    (op : ArithOp) (span : Span) :
    Yields (ctx.compoundAssignment op target value span) a fun r b => ctx.Made a₀ r.parts b := by
  unfold compoundAssignment
  refine .bind fun _ c assignable => .bind fun result d typed => ?_
  have operands := given.checked (ctx.asks_checkAssignable target _) assignable
  have operands := operands.checked (ctx.asks_arithType op _ _ span) typed
  have node (stored : Option Ty) : ctx.Made a₀ (Expr.parts
      (.assign ⟨stored.getD result, span⟩ target (.compound op) value stored)) d := operands.node _ rfl trivial
  dsimp only
  cases storedType? target.type with
  | none => exact .pure (node none)
  | some type =>
    refine .bind fun _ c checked => .pure ?_
    exact (node (some type)).checked (ctx.asks_checkCoercion _ _ _) checked

theorem made_stepNode {target : Expr} (given : ctx.Made a₀ target.parts a) (op : StepOp) (span : Span) :
    Yields (ctx.stepNode op target span) a fun r b => ctx.Made a₀ r.parts b := by
  unfold stepNode
  refine .bind fun _ c assignable => .bind fun strong d asked => ?_
  have operand := given.checked (ctx.asks_checkAssignable target span) assignable
  have operand := operand.checked .strong asked
  split
  · exact .fail _ _
  · exact .pure (operand.node (.step _ op target) rfl trivial)

/-! ## Expressions -/

mutual

/-- The analysis of an expression makes its parts. -/
theorem made_expr (e : Syntax.Expr) (hint : Option Ty) {a : AnalysisState} :
    Yields (ctx.expr e hint) a fun r b => ctx.Made a r.parts b := by
  -- by recursion on the expression: the parts are made one after the other, and then comes the node itself
  cases e with
  | literal span value =>
    unfold expr
    exact .pure ((Made.refl ctx a).node (.constant _ value) rfl trivial)
  | ident span name =>
    unfold expr
    exact made_ident name span
  | field span receiver name =>
    unfold expr
    refine .get ?_
    split
    · exact made_propertyChain (made_classNode ctx _ span a) span _
    · exact .bind fun receiver c made => made_property (made_expr _ none made) name span
  | methodCall span receiver name args =>
    unfold expr
    refine .bind fun receiver c made => .bind fun args d rest => ?_
    exact made_methodCall ((made_expr _ none made).trans (made_exprs _ rest)) name span
  | call span name args =>
    unfold expr
    exact .bind fun args c made => made_callNamed (made_exprs _ made) name span
  | index span receiver position =>
    unfold expr
    refine .bind fun receiver c made => .bind fun position d rest => ?_
    exact made_index ((made_expr _ none made).trans (made_expr _ none rest)) span
  | assign span target op value =>
    cases op with
    | plain =>
      unfold expr
      refine .bind fun value c made => .bind fun assigned d rest => ?_
      have first := made_expr _ none made
      -- the value comes before the target, so that a name it declares is known to the target already
      have opening : Opening a assigned :=
        fun stored name hn known => opening_assignedTarget _ _ _ rest stored name hn (first.vars name known)
      exact made_plainAssignment (first.trans (made_assignedTarget _ _ (made_expr target none) rest)) opening span
    | compound op =>
      unfold expr
      refine .bind fun target c made => .bind fun value d rest => ?_
      exact made_compoundAssignment ((made_expr _ none made).trans (made_expr _ none rest)) op span
  | arith span op left right =>
    unfold expr
    refine .bind fun left c made => .bind fun right d rest => .bind fun type d' typed => .pure ?_
    have operands := (made_expr _ none made).trans (made_expr _ none rest)
    exact (operands.checked (ctx.asks_arithType op _ _ span) typed).node (.arith _ op left right) rfl trivial
  | logic span op left right =>
    unfold expr
    refine .bind fun left c made => .bind fun _ c' checked => ?_
    refine .bind fun right d rest => .bind fun _ d' checked' => .pure ?_
    have left := (made_expr _ none made).checked (ctx.asks_checkCondition _) checked
    have operands := (left.trans (made_expr _ none rest)).checked (ctx.asks_checkCondition _) checked'
    exact operands.node (.logic _ op _ right) rfl trivial
  | compare span op left right =>
    unfold expr
    refine .bind fun left c made => .bind fun right d rest => .bind fun _ d' checked => .pure ?_
    have operands := (made_expr _ none made).trans (made_expr _ none rest)
    have operands := operands.checked (ctx.asks_checkComparison op _ _ span) checked
    exact operands.node (.compare _ op left right) rfl trivial
  | unary span op operand =>
    unfold expr
    refine .bind fun operand c made => ?_
    have node {b : AnalysisState} (kept : ctx.Made a operand.parts b) : Yields (do
        let type ← ctx.unaryType op operand.type span
        return Expr.unary ⟨type, span⟩ op operand) b fun r b => ctx.Made a r.parts b := by
      refine .bind fun type d typed => .pure ?_
      exact (kept.checked (ctx.asks_unaryType op _ span) typed).node (.unary _ op operand) rfl trivial
    have operand := made_expr _ none made
    cases op with
    | not => exact .bind fun _ d checked => node (operand.checked (ctx.asks_checkCondition _) checked)
    | neg => exact node operand
  | step span op target =>
    unfold expr
    exact .bind fun target c made => made_stepNode (made_expr _ none made) op span
  | cast span type operand =>
    unfold expr
    refine .bind fun type c resolved => .bind fun operand d made => .bind fun _ d' checked => .pure ?_
    have given := (Made.refl ctx a).checked (ctx.asks_resolveType _) resolved
    have operands := (given.trans (made_expr _ (some type) made)).checked (ctx.asks_checkCast _ type span) checked
    exact operands.node (.cast _ type operand) rfl trivial
  | conditional span cond thenBranch elseBranch =>
    unfold expr
    refine .bind fun cond c made => .bind fun _ c' checked => ?_
    refine .bind fun first d rest => .bind fun second d' last => .pure ?_
    have cond' := (made_expr _ none made).checked (ctx.asks_checkCondition _) checked
    have operands := (cond'.trans (made_expr _ hint rest)).trans (made_expr _ hint last)
    exact operands.node (.conditional _ cond first second) rfl trivial
  | construct span type args =>
    unfold expr
    refine .bind fun type c resolved => .bind fun args d made => ?_
    have given := (Made.refl ctx a).checked (ctx.asks_resolveType _) resolved
    exact made_construct (given.trans (made_exprs _ made)) type span
  | newArray span type items =>
    unfold expr
    refine .bind fun type c resolved => .bind fun items d made => .pure ?_
    have given := (Made.refl ctx a).checked (ctx.asks_resolveType _) resolved
    exact (given.trans (made_arrayItems _ _ made)).node (.newArray _ _ items) rfl trivial
  | newSized span type length =>
    unfold expr
    refine .bind fun item c resolved => .bind fun length d made => .bind fun _ d' checked => .pure ?_
    have given := (Made.refl ctx a).checked (ctx.asks_resolveType _) resolved
    have operand := (given.trans (made_expr _ none made)).checked (ctx.asks_checkLength length) checked
    exact operand.node (.newSized _ item length) rfl trivial
  | inlineArray span items =>
    unfold expr
    split
    · exact .bind fun items c made => .pure ((made_arrayItems _ _ made).node (.newArray _ _ items) rfl trivial)
    · exact .bind fun items c made => .pure ((made_exprs _ made).node (ctx.inlineArray items span) rfl trivial)
  | inlineList span items =>
    unfold expr
    exact .bind fun items c made => made_inlineList (made_exprs _ made) span
  | inlineMap span entries =>
    unfold expr
    exact .bind fun entries c made => made_inlineMap (made_exprEntries _ made) span
termination_by sizeOf e

theorem made_exprs (es : List Syntax.Expr) {a : AnalysisState} :
    Yields (ctx.exprs es) a fun rs b => ctx.Made a (Expr.partsAll rs) b := by
  cases es with
  | nil =>
    unfold exprs
    exact .pure (Made.refl ctx a)
  | cons e es =>
    unfold exprs
    refine .bind fun r c made => .bind fun rs d rest => .pure ?_
    rw [Expr.partsAll_cons]
    exact (made_expr e none made).trans (made_exprs es rest)
termination_by sizeOf es

theorem made_arrayItems (item : Ty) (es : List Syntax.Expr) {a : AnalysisState} :
    Yields (ctx.arrayItems item es) a fun rs b => ctx.Made a (Expr.partsAll rs) b := by
  cases es with
  | nil =>
    unfold arrayItems
    exact .pure (Made.refl ctx a)
  | cons e es =>
    unfold arrayItems
    refine .bind fun r c made => .bind fun _ c' checked => .bind fun rs d rest => .pure ?_
    have first := (made_expr e (some item) made).checked (ctx.asks_checkCoercion _ item _) checked
    rw [Expr.partsAll_cons]
    exact first.trans (made_arrayItems item es rest)
termination_by sizeOf es

theorem made_exprEntries (es : List (Syntax.Expr × Syntax.Expr)) {a : AnalysisState} :
    Yields (ctx.exprEntries es) a fun rs b => ctx.Made a (Expr.partsEntries rs) b := by
  match es with
  | [] =>
    unfold exprEntries
    exact .pure (Made.refl ctx a)
  | (key, value) :: rest =>
    unfold exprEntries
    refine .bind fun k c made => .bind fun v d made' => .bind fun rs d' made'' => .pure ?_
    rw [Expr.partsEntries_cons]
    exact ((made_expr key none made).trans (made_expr value none made')).trans (made_exprEntries rest made'')
termination_by sizeOf es

end

/-! ## Statements -/

theorem made_expr? (e : Option Syntax.Expr) (hint : Option Ty) {a : AnalysisState} :
    Yields (ctx.expr? e hint) a fun r b => ctx.Made a ((r.map Expr.parts).getD []) b := by
  cases e with
  | none => exact .pure (Made.refl ctx a)
  | some e => exact .bind fun r c made => .pure (made_expr e hint made)

theorem made_condition (e : Syntax.Expr) {a : AnalysisState} :
    Yields (ctx.condition e) a fun r b => ctx.Made a r.parts b := by
  unfold condition
  refine .bind fun cond c made => .bind fun _ d checked => .pure ?_
  exact (made_expr e none made).checked (ctx.asks_checkCondition cond) checked

theorem made_condition? (e : Option Syntax.Expr) {a : AnalysisState} :
    Yields (ctx.condition? e) a fun r b => ctx.Made a ((r.map Expr.parts).getD []) b := by
  cases e with
  | none => exact .pure (Made.refl ctx a)
  | some e => exact .bind fun r c made => .pure (made_condition e made)

theorem made_declareInBlock (name : String) (type : Ty) {a : AnalysisState} :
    Yields (declareInBlock name type) a fun _ b => ctx.Made a [] b := by
  intro u b declared
  rw [declareInBlock_apply] at declared
  cases declared
  unfold AnalysisState.declaring
  split
  · exact .idle rfl (fun _ hn => hn) fun _ hn => hn
  · exact .refl ctx a

theorem made_declareName (name : String) (type : Ty) {a : AnalysisState} :
    Yields (declareName name type) a fun _ b => ctx.Made a [] b := by
  unfold declareName
  refine .get ?_
  split
  · refine .bind fun _ c declared => .pure ?_
    exact (Made.refl ctx a).modified (fun _ hn => hn.declare name type)
      (fun _ hn => Environment.has_declare hn name type) declared
  · exact .bind fun _ c declared => .pure (made_declareInBlock name type declared)

theorem made_declarator (declared : Option Ty) (d : Syntax.Declarator) {a : AnalysisState} :
    Yields (ctx.declarator declared d) a fun s b => ctx.Made a s.parts b := by
  rw [declarator_eq]
  refine .bind fun init c analyzed => .bind fun _ c' checked => .bind fun inBlock e named => ?_
  refine .bind fun _ e' remembered => .pure ?_
  have made := (made_expr? d.init declared analyzed).checked (ctx.asks_checkInitial declared init) checked
  exact (made.followed (made_declareName d.name _ named)).remembered remembered

theorem made_declarators (declared : Option Ty) (ds : List Syntax.Declarator) {a : AnalysisState} :
    Yields (ctx.declarators declared ds) a fun ss b => ctx.Made a (Stmt.partsAll ss) b := by
  induction ds generalizing a with
  | nil => exact .pure (Made.refl ctx a)
  | cons d ds ih =>
    unfold declarators
    refine .bind fun s c made => .bind fun ss c' rest => .pure ?_
    exact (made_declarator declared d made).trans (ih rest)

theorem made_returned (value : Option Syntax.Expr) {a : AnalysisState} :
    Yields (ctx.returned value) a fun s b => ctx.Made a s.parts b := by
  unfold returned
  refine .bind fun value c made => .bind fun _ d noted => .pure ?_
  cases noted
  exact (made_expr? _ none made).followed (.idle rfl (fun _ hn => hn) fun _ hn => hn)

theorem made_importPackage (package : String) (span : Span) {a : AnalysisState} :
    Yields (ctx.importPackage package span) a fun _ b => ctx.Made a [] b := by
  unfold importPackage
  split
  · exact .fail _ _
  · have keeps (P : Environment → Prop) (stable : ∀ env n what, P env → P (env.addImport n what))
        (found : List ClassRef) (env : Environment) (hn : P env) :
        P (found.foldl (fun env c => env.addImport (ctx.classes.name c) (.cls c)) env) := by
      induction found generalizing env with
      | nil => exact hn
      | cons c found ih => exact ih _ (stable _ _ _ hn)
    intro u b imported
    exact (Made.refl ctx a).modified (fun name hn => keeps (·.Knows name) (fun _ _ _ h => h) _ a.env hn)
      (fun name hn => keeps (·.vars.has name) (fun _ _ _ h => h) _ a.env hn) imported

theorem made_importClass (path : String) (span : Span) {a : AnalysisState} :
    Yields (ctx.importClass path span) a fun _ b => ctx.Made a [] b := by
  unfold importClass
  split
  · intro u b imported
    exact (Made.refl ctx a).modified (fun _ hn => hn) (fun _ hn => hn) imported
  · exact .fail _ _

/-- A block around a step neither numbers sites nor forgets names. -/
theorem made_inBlock {α : Type} {x : Analysis α} {nodes : List Expr} {post : α → List Expr}
    (given : ctx.Made a₀ nodes a)
    (h : ctx.Made a₀ nodes a.opened → Yields x a.opened fun r b => ctx.Made a₀ (post r) b) :
    Yields (inBlock x) a fun r b => ctx.Made a₀ (post r) b := by
  intro r b hr
  rw [inBlock_apply] at hr
  obtain ⟨outcome, rfl⟩ := Prod.mk.inj hr
  have opened := given.followed (c := a.opened) (.idle rfl (fun _ hn => hn) fun _ hn => hn)
  refine (h opened (Prod.ext outcome rfl)).followed ?_
  unfold AnalysisState.closed
  split
  · exact .idle rfl (fun _ hn => hn.noteBlockNames _) fun _ hn => Environment.has_noteBlockNames hn _
  · exact .refl ctx _

/-- Statements in a block. -/
theorem made_block {body : List Syntax.Stmt} {nodes : List Expr}
    (h : ∀ a, Yields (ctx.stmts body) a fun ss b => ctx.Made a (Stmt.partsAll ss) b) (given : ctx.Made a₀ nodes a) :
    Yields (inBlock (ctx.stmts body)) a fun ss b => ctx.Made a₀ (nodes ++ Stmt.partsAll ss) b :=
  made_inBlock given fun opened _ _ hr => opened.trans (h a.opened hr)

/-- One statement as a row. -/
theorem Made.one {b : AnalysisState} {s : Stmt} (h : ctx.Made a s.parts b) : ctx.Made a (Stmt.partsAll [s]) b :=
  h.trans (.refl ctx b)

theorem parts_single (ss : List Stmt) : (single ss).parts.Sublist (Stmt.partsAll ss) := by
  unfold single
  split
  · exact List.sublist_append_left _ _
  · exact List.Sublist.refl _

/-- A `for` statement behind its start, which has made its own parts. -/
theorem made_loopParts (init : Option Stmt) {cond : Option Syntax.Expr} {update : List Syntax.Expr}
    {body : List Syntax.Stmt} {b : AnalysisState}
    (first : ctx.Made a (match init with
      | some s => Stmt.parts s
      | none => []) b)
    (rows : ∀ a, Yields (ctx.stmts body) a fun ss b => ctx.Made a (Stmt.partsAll ss) b) :
    Yields (ctx.loopParts init cond update body) b fun ss b => ctx.Made a (Stmt.partsAll ss) b := by
  unfold loopParts
  refine .bind fun cond c made => .bind fun update d made' => .bind fun body d' made'' => .pure ?_
  have head := (first.trans (made_condition? _ made)).trans (made_exprs _ made')
  have whole := made_block rows head made''
  cases init with
  | none => exact Made.one whole
  | some s => exact Made.one whole

mutual

/-- The analysis of a statement makes its parts. -/
theorem made_stmt (s : Syntax.Stmt) (a : AnalysisState) :
    Yields (ctx.stmt s) a fun ss b => ctx.Made a (Stmt.partsAll ss) b := by
  cases s with
  | expr e =>
    unfold stmt
    refine .bind fun e c made => .pure ?_
    exact (made_expr _ none made).one
  | declare type ds =>
    unfold stmt
    refine .bind fun declared c resolved => ?_
    rw [(ctx.asks_resolveType? type).eq_of_ok resolved]
    exact made_declarators declared ds
  | branch cond thenBody elseBody =>
    unfold stmt
    refine .bind fun cond c made => .bind fun thenBody d first => ?_
    have first := made_block (made_stmts _) (made_condition _ made) first
    cases elseBody with
    | none => exact .pure (Made.one (first.trans (.refl ctx d)))
    | some body =>
      refine .bind fun elseBody d' last => .pure (Made.one ?_)
      obtain ⟨body', analyzed, rfl⟩ := map_ok last
      exact made_block (made_stmts body) first analyzed
  | whileLoop cond body =>
    unfold stmt
    refine .bind fun cond c made => .bind fun body d rest => .pure ?_
    exact Made.one (made_block (made_stmts _) (made_condition _ made) rest)
  | forLoop init cond update body =>
    cases init with
    | none =>
      rw [stmt_forLoop_none]
      exact made_inBlock (.refl ctx a) fun opened => made_loopParts none opened (made_stmts body)
    | some s =>
      rw [stmt_forLoop_some]
      refine made_inBlock (.refl ctx a) fun opened => .bind fun ss c made => ?_
      have start := (opened.trans (made_stmt s _ made)).sublist (parts_single ss)
      exact made_loopParts (some (single ss)) start (made_stmts body)
  | forEach type name span items body =>
    unfold stmt
    refine .bind fun declared c resolved => .bind fun items d made => .bind fun item d' typed => ?_
    have given := (Made.refl ctx a).checked (ctx.asks_resolveType? type) resolved
    have given := (given.trans (made_expr _ none made)).checked (ctx.asks_iteratedType items) typed
    refine made_inBlock given fun opened => ?_
    refine .bind fun _ e named => .bind fun body e' made' => .pure ?_
    have named := opened.followed (made_declareInBlock name _ named)
    exact Made.one (made_block (made_stmts _) named made')
  | block body =>
    unfold stmt
    refine .bind fun body d made => .pure ?_
    exact Made.one (made_block (made_stmts _) (.refl ctx a) made)
  | returns value =>
    unfold stmt
    exact .bind fun s c made => .pure (made_returned value made).one
  | importPath path everything span =>
    unfold stmt
    cases everything with
    | true => exact .bind fun _ c imported => .pure (made_importPackage path span imported)
    | false => exact .bind fun _ c imported => .pure (made_importClass path span imported)
termination_by sizeOf s

/-- The analysis of statements in a row makes their parts. -/
theorem made_stmts (ss : List Syntax.Stmt) (a : AnalysisState) :
    Yields (ctx.stmts ss) a fun rs b => ctx.Made a (Stmt.partsAll rs) b := by
  cases ss with
  | nil =>
    unfold stmts
    exact .pure (Made.refl ctx a)
  | cons s ss =>
    unfold stmts
    refine .bind fun first c made => .bind fun rest d made' => .pure ?_
    rw [Stmt.partsAll_append]
    exact (made_stmt s a made).trans (made_stmts ss c made')
termination_by sizeOf ss

end

end Context

end HostExpr
