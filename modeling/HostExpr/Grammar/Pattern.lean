/-!
# Parsing expressions

A `Pattern` is a parsing expression over characters: ordered choice, greedy repetition, look-ahead.
Patterns refer to each other through named rules (`Rule`), so a grammar is plain data: a function from
rules to patterns (`HostExpr.Grammar.Rules`).
-/

namespace HostExpr

/-- The named rules of the expression grammar. A match of a rule is a node of the parse tree, and a rule is
what a syntax error can say it expected. -/
inductive Rule
  | endOfInput
  | main
  | statements
  | block
  | body
  | ifStmt
  | whileStmt
  | foreachStmt
  | foreachVar
  | forStmt
  | forInit
  | forCond
  | forUpdate
  | returnStmt
  | importStmt
  | wildcard
  | declaration
  | declarator
  | assignment
  | lvalue
  | assignOp
  | assignEq
  | expression
  | ternaryTail
  | operation
  | orOp
  | andOp
  | eqOp
  | neOp
  | leOp
  | geOp
  | ltOp
  | gtOp
  | addOp
  | subOp
  | mulOp
  | divOp
  | remOp
  | negOp
  | notOp
  | castOp
  | methodCall
  | field
  | index
  | incr
  | decr
  | paren
  | call
  | newObject
  | newArray
  | newSizedArray
  | inlineArray
  | inlineList
  | inlineMap
  | mapEntry
  | typeExpr
  | typeName
  | typeArgs
  | dims
  | qualifiedName
  | double
  | long
  | integer
  | string
  | boolean
  | null
  | ident
  | kwIf
  | kwElse
  | kwWhile
  | kwFor
  | kwReturn
  | kwNew
  | kwImport
  | kwVar
deriving DecidableEq, Repr, Inhabited

namespace Rule

/-- All rules, in the order in which a syntax error lists them. -/
def listed : List Rule :=
  [.endOfInput, .main, .statements, .block, .body, .ifStmt, .whileStmt, .foreachStmt, .foreachVar,
    .forStmt, .forInit, .forCond, .forUpdate, .returnStmt, .importStmt, .wildcard, .declaration,
    .declarator, .assignment, .lvalue, .assignOp, .assignEq, .expression, .ternaryTail, .operation,
    .orOp, .andOp, .eqOp, .neOp, .leOp, .geOp, .ltOp, .gtOp, .addOp, .subOp, .mulOp, .divOp, .remOp,
    .negOp, .notOp, .castOp, .methodCall, .field, .index, .incr, .decr, .paren, .call, .newObject,
    .newArray, .newSizedArray, .inlineArray, .inlineList, .inlineMap, .mapEntry, .typeExpr, .typeName,
    .typeArgs, .dims, .qualifiedName, .double, .long, .integer, .string, .boolean, .null, .ident,
    .kwIf, .kwElse, .kwWhile, .kwFor, .kwReturn, .kwNew, .kwImport, .kwVar]

/-- Token rules are matched character by character: nothing is skipped inside them, and the rules they
use are not reported. -/
def isToken : Rule → Bool
  | .assignOp | .assignEq | .ltOp | .gtOp | .addOp | .subOp | .mulOp | .divOp | .remOp | .negOp | .notOp
  | .qualifiedName | .double | .long | .integer | .string | .boolean | .null | .ident
  | .kwIf | .kwElse | .kwWhile | .kwFor | .kwReturn | .kwNew | .kwImport | .kwVar => true
  | _ => false

/-- Keywords and the plain `=` carry no meaning of their own, so the parse tree has no node for them. The
keyword of an untyped declaration does: it stands in the place of the type. -/
def leavesNode : Rule → Bool
  | .endOfInput | .assignEq
  | .kwIf | .kwElse | .kwWhile | .kwFor | .kwReturn | .kwNew | .kwImport => false
  | _ => true

end Rule

/-- Sets of characters that tokens are made of. -/
inductive CharClass
  | any
  | digit
  | letter
  | letterOrDigit
deriving DecidableEq, Repr

/-- Letters and digits are the ASCII ones. -/
def CharClass.has : CharClass → Char → Bool
  | .any, _ => true
  | .digit, c => c.isDigit
  | .letter, c => c.isAlpha
  | .letterOrDigit, c => c.isAlphanum

/-- A parsing expression. -/
inductive Pattern
  | nothing
  | text (chars : List Char)
  | one (chars : CharClass)
  | atEnd
  | rule (r : Rule)
  | seq (p q : Pattern)
  | alt (p q : Pattern)
  | star (p : Pattern)
  | opt (p : Pattern)
  | ahead (p : Pattern)
  | notAhead (p : Pattern)
deriving Repr

namespace Pattern

/-- The patterns one after the other. -/
def all : List Pattern → Pattern
  | [] => .nothing
  | [p] => p
  | p :: ps => .seq p (all ps)

/-- The first pattern that matches. -/
def first : List Pattern → Pattern
  | [] => .notAhead .nothing
  | [p] => p
  | p :: ps => .alt p (first ps)

/-- One or more matches. -/
def plus (p : Pattern) : Pattern := .seq p (.star p)

/-- One or more matches, with a separator between two of them. -/
def separated (p : Pattern) (separator : List Char) : Pattern :=
  .seq p (.star (.seq (.text separator) p))

end Pattern

end HostExpr
