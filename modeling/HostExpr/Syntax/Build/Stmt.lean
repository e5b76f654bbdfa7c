import HostExpr.Syntax.Build.Expr

/-!
# Statements of parse trees

The statement that a node of the parse tree stands for. The expressions of different statements do not nest:
each is counted from the start.
-/

namespace HostExpr.Syntax

/-- What a declaration starts with: a type, or nothing for the keyword of an untyped one. -/
def declaredType (n : Node) : Build (Option TypeExpr) :=
  match n.rule with
  | .kwVar => return none
  | _ => some <$> required n (typeExpr? n)

/-- One declared name. -/
def buildDeclarator (limit : Nat) : Node → Build Declarator
  | .mk _ _ _ [name] => return ⟨nodeText name, name.span, none⟩
  | .mk _ _ _ [name, init] => do
    let init ← buildExpr limit 0 init
    return ⟨nodeText name, name.span, some init⟩
  | n => failAt n .malformedTree

/-- The declared names of a declaration. -/
def buildDeclarators (limit : Nat) (ns : List Node) : Build (List Declarator) :=
  ns.mapM (buildDeclarator limit)

/-- The type and name of the variable of a loop over items. -/
def loopVariable (n : Node) : Build (Option TypeExpr × Node) :=
  match n.children with
  | [name] => return (none, name)
  | [type, name] => do
    let type ← declaredType type
    return (type, name)
  | _ => failAt n .malformedTree

/-- The parts in the head of a counting loop, and its body. -/
structure LoopParts where
  init : Option Stmt
  cond : Option Expr
  update : List Expr
  body : List Stmt

mutual

/-- The statement of a node. -/
def buildStmt (limit : Nat) : Node → Build Stmt
  | .mk rule a b ns =>
    let here : Node := .mk rule a b ns
    match rule, ns with
    | .block, [.mk _ _ _ body] => do
      let body ← buildStmts limit body
      return .block body
    | .ifStmt, [cond, yes] => do
      let cond ← buildExpr limit 0 cond
      let yes ← buildBody limit yes
      return .branch cond yes none
    | .ifStmt, [cond, yes, no] => do
      let cond ← buildExpr limit 0 cond
      let yes ← buildBody limit yes
      let no ← buildBody limit no
      return .branch cond yes (some no)
    | .whileStmt, [cond, body] => do
      let cond ← buildExpr limit 0 cond
      let body ← buildBody limit body
      return .whileLoop cond body
    | .foreachStmt, [head, items, body] => do
      let items ← buildExpr limit 0 items
      let body ← buildBody limit body
      let (type, name) ← loopVariable head
      return .forEach type (nodeText name) name.span items body
    | .forStmt, parts => do
      let parts ← buildLoop limit parts
      return .forLoop parts.init parts.cond parts.update parts.body
    | .returnStmt, [] => return .returns none
    | .returnStmt, [value] => do
      let value ← buildExpr limit 0 value
      return .returns (some value)
    | .importStmt, [path] => return .importPath (nodeText path) false here.span
    | .importStmt, [path, _] => return .importPath (nodeText path) true here.span
    | .declaration, type :: declarators => do
      let type ← declaredType type
      let declarators ← buildDeclarators limit declarators
      return .declare type declarators
    | _, _ => do
      let e ← buildExpr limit 0 here
      return .expr e

/-- Statements in a row. -/
def buildStmts (limit : Nat) : List Node → Build (List Stmt)
  | [] => return []
  | n :: ns => do
    let s ← buildStmt limit n
    let ss ← buildStmts limit ns
    return s :: ss

/-- The body of a branch or loop: the statements of a block, or one statement. -/
def buildBody (limit : Nat) : Node → Build (List Stmt)
  | .mk _ _ _ [.mk .block _ _ [.mk _ _ _ body]] => buildStmts limit body
  | .mk _ _ _ [n] => do
    let s ← buildStmt limit n
    return [s]
  | n => failAt n .malformedTree

/-- The parts of a counting loop, each where it is present. -/
def buildLoop (limit : Nat) : List Node → Build LoopParts
  | [] => return ⟨none, none, [], []⟩
  | .mk .forInit _ _ [n] :: ns => do
    let init ← buildStmt limit n
    let parts ← buildLoop limit ns
    return { parts with init := some init }
  | .mk .forCond _ _ [n] :: ns => do
    let cond ← buildExpr limit 0 n
    let parts ← buildLoop limit ns
    return { parts with cond := some cond }
  | .mk .forUpdate _ _ update :: ns => do
    let update ← buildExprs limit 0 update
    let parts ← buildLoop limit ns
    return { parts with update := update }
  | n :: ns => do
    let body ← buildBody limit n
    let parts ← buildLoop limit ns
    return { parts with body := body }

end

end HostExpr.Syntax
