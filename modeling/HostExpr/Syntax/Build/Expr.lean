import HostExpr.Grammar.Match
import HostExpr.Number.Decimal
import HostExpr.Syntax.Error
import HostExpr.Syntax.Precedence

/-!
# Expressions of parse trees

The type or expression that a node of the parse tree stands for. Nested expressions are counted on the way: a
tree that nests deeper than the limit is refused at the first expression, from the left, that lies too deep.
-/

namespace HostExpr.Syntax

/-- Building a part of a syntax tree. -/
abbrev Build := Except ParseError

/-- The source text of a node. -/
def nodeText (n : Node) : String := String.ofList n.text

/-- A failure at a node. -/
def failAt {α : Type} (n : Node) (cause : ParseCause) : Build α := .error ⟨cause, n.span⟩

/-- A part that must be there. -/
def required {α : Type} (n : Node) : Option α → Build α
  | some a => .ok a
  | none => failAt n .malformedTree

/-- The number of opening brackets in the text of a node. -/
def bracketCount (n : Node) : Nat := n.text.count '['

mutual

/-- A type with its dimensions; its span takes in the dimensions and the blanks behind it. -/
def typeExpr? : Node → Option TypeExpr
  | .mk .typeExpr a b [name] =>
    (typeName? name).map fun t => .mk t.path t.args 0 ⟨a.offset, b.offset⟩
  | .mk .typeExpr a b [name, dims] =>
    (typeName? name).map fun t => .mk t.path t.args (bracketCount dims) ⟨a.offset, b.offset⟩
  | _ => none

/-- A type without dimensions. -/
def typeName? : Node → Option TypeExpr
  | .mk .typeName a b [path] => some (.mk (nodeText path) [] 0 ⟨a.offset, b.offset⟩)
  | .mk .typeName a b [path, .mk .typeArgs _ _ args] =>
    (typeExprs? args).map fun args => .mk (nodeText path) args 0 ⟨a.offset, b.offset⟩
  | _ => none

/-- Types in a row. -/
def typeExprs? : List Node → Option (List TypeExpr)
  | [] => some []
  | n :: ns =>
    match typeExpr? n, typeExprs? ns with
    | some t, some ts => some (t :: ts)
    | _, _ => none

end

/-- The value of a literal node. -/
def literalOf (n : Node) : Build Literal :=
  match n.rule with
  | .integer =>
    match int32? n.text with
    | some i => .ok (.int i)
    | none =>
      match int64? n.text with
      | some l => .ok (.long l)
      | none => failAt n .integerTooLarge
  | .long =>
    match int64? (n.text.takeWhile Char.isDigit) with
    | some l => .ok (.long l)
    | none => failAt n .integerTooLarge
  | .double =>
    match double? (n.text.filter fun c => !(c = 'd' || c = 'D' || c = 'f' || c = 'F')) with
    | some d => .ok (.double d)
    | none => failAt n .doubleMalformed
  | .boolean => .ok (.bool (n.text == ['t', 'r', 'u', 'e']))
  | .null => .ok .null
  | .string =>
    match unescape n.text.tail.dropLast with
    | .ok cs => .ok (.str (String.ofList cs))
    | .error e => failAt n (.escape e)
  | _ => failAt n .malformedTree

/-- The operator that a node between two operands is. -/
def betweenOp? : Rule → Option BetweenOp
  | .orOp => some (.logic .or)
  | .andOp => some (.logic .and)
  | .eqOp => some (.compare .eq)
  | .neOp => some (.compare .ne)
  | .leOp => some (.compare .le)
  | .geOp => some (.compare .ge)
  | .ltOp => some (.compare .lt)
  | .gtOp => some (.compare .gt)
  | .addOp => some (.arith .add)
  | .subOp => some (.arith .sub)
  | .mulOp => some (.arith .mul)
  | .divOp => some (.arith .div)
  | .remOp => some (.arith .rem)
  | _ => none

/-- The assignment operator with the given text. -/
def assignOp (text : List Char) : AssignOp :=
  match text with
  | '+' :: _ => .compound .add
  | '-' :: _ => .compound .sub
  | '*' :: _ => .compound .mul
  | '/' :: _ => .compound .div
  | '%' :: _ => .compound .rem
  | _ => .plain

/-- The rules that an operation has as operands. -/
def operandRules : List Rule :=
  [.newArray, .newSizedArray, .newObject, .inlineMap, .inlineList, .inlineArray, .paren, .call, .double,
    .long, .integer, .string, .boolean, .null, .ident]

mutual

/-- The expression of a node, `depth` expressions deep. -/
def buildExpr (limit depth : Nat) : Node → Build Expr
  | .mk rule a b ns =>
    let here : Node := .mk rule a b ns
    if limit ≤ depth then failAt here (.tooDeep limit)
    else
      let span : Span := here.span
      match rule, ns with
      | .assignment, [target, op, value] => do
        let target ← buildExpr limit (depth + 1) target
        let value ← buildExpr limit (depth + 1) value
        return .assign span target (assignOp op.text) value
      | .expression, [cond] => buildExpr limit (depth + 1) cond
      | .expression, [cond, .mk .ternaryTail _ _ [yes, no]] => do
        let cond ← buildExpr limit (depth + 1) cond
        let yes ← buildExpr limit (depth + 1) yes
        let no ← buildExpr limit (depth + 1) no
        return .conditional span cond yes no
      | .operation, pieces => do
        let pieces ← buildPieces limit (depth + 1) pieces
        required here (assemble pieces)
      | .lvalue, pieces => do
        let pieces ← buildPieces limit (depth + 1) pieces
        required here (assemble pieces)
      | .paren, [inner] => buildExpr limit (depth + 1) inner
      | .call, name :: args => do
        let args ← buildExprs limit (depth + 1) args
        return .call span (nodeText name) args
      | .newObject, type :: args => do
        let type ← required here (typeExpr? type)
        let args ← buildExprs limit (depth + 1) args
        return .construct span type args
      | .newArray, [type, dims, .mk _ _ _ items] => do
        let type ← required here (typeName? type)
        let items ← buildExprs limit (depth + 1) items
        -- one of the brackets is that of the array itself
        return .newArray span (.mk type.path type.args (bracketCount dims - 1) type.span) items
      | .newSizedArray, [type, length] => do
        let type ← required here (typeName? type)
        let length ← buildExpr limit (depth + 1) length
        return .newSized span type length
      | .inlineArray, items => do
        let items ← buildExprs limit (depth + 1) items
        return .inlineArray span items
      | .inlineList, items => do
        let items ← buildExprs limit (depth + 1) items
        return .inlineList span items
      | .inlineMap, entries => do
        let entries ← buildEntries limit (depth + 1) entries
        return .inlineMap span entries
      | .ident, _ => return .ident span (nodeText here)
      | _, _ => do
        let value ← literalOf here
        return .literal span value

/-- Expressions in a row. -/
def buildExprs (limit depth : Nat) : List Node → Build (List Expr)
  | [] => return []
  | n :: ns => do
    let e ← buildExpr limit depth n
    let es ← buildExprs limit depth ns
    return e :: es

/-- The entries of a map. -/
def buildEntries (limit depth : Nat) : List Node → Build (List (Expr × Expr))
  | [] => return []
  | .mk _ _ _ [key, value] :: ns => do
    let key ← buildExpr limit depth key
    let value ← buildExpr limit depth value
    let entries ← buildEntries limit depth ns
    return (key, value) :: entries
  | n :: _ => failAt n .malformedTree

/-- The pieces of an operation: operators, and the operands between them. -/
def buildPieces (limit depth : Nat) : List Node → Build (List Piece)
  | [] => return []
  | n :: ns => do
    let piece ←
      if n.rule ∈ operandRules then do
        let e ← buildExpr limit depth n
        pure (.operand e)
      else match n with
      | .mk .negOp _ _ _ => pure (.front .neg n.span)
      | .mk .notOp _ _ _ => pure (.front .not n.span)
      | .mk .castOp _ _ [type] => do
        let type ← required n (typeExpr? type)
        pure (.front (.cast type) n.span)
      | .mk .methodCall _ _ (name :: args) => do
        let args ← buildExprs limit depth args
        pure (.back (.methodCall (nodeText name) args) n.span)
      | .mk .field _ _ [name] => pure (.back (.field (nodeText name)) n.span)
      | .mk .index _ _ [position] => do
        let position ← buildExpr limit depth position
        pure (.back (.index position) n.span)
      | .mk .incr _ _ _ => pure (.back (.step .incr) n.span)
      | .mk .decr _ _ _ => pure (.back (.step .decr) n.span)
      | _ =>
        match betweenOp? n.rule with
        | some op => pure (.between op)
        | none => failAt n .malformedTree
    let pieces ← buildPieces limit depth ns
    return piece :: pieces

end

end HostExpr.Syntax
