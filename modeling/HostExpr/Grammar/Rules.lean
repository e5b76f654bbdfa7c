import HostExpr.Grammar.Pattern

/-!
# The grammar of expressions and statement sequences

`Rule.pattern` gives every rule its parsing expression. Patterns that stand for a choice without a node of
its own (a statement, a primary, an operator) are plain definitions.
-/

namespace HostExpr

open Pattern

/-! ## Blanks, comments, identifiers -/

/-- What may stand between two tokens: blanks, line comments and block comments. -/
def trivia : Pattern :=
  .star (first
    [.text [' '], .text ['\t'], .text ['\r'], .text ['\n'],
      all [.text ['/', '/'], .star (.seq (.notAhead (.text ['\n'])) (.one .any))],
      all [.text ['/', '*'], .star (.seq (.notAhead (.text ['*', '/'])) (.one .any)), .text ['*', '/']]])

/-- A character that an identifier can go on with. -/
def identChar : Pattern := first [.one .letterOrDigit, .text ['_'], .text ['$']]

/-- A word that is not the start of a longer identifier. -/
def word (chars : List Char) : Pattern := .seq (.text chars) (.notAhead identChar)

/-- The words that are no identifiers. -/
def keyword : Pattern :=
  .seq
    (first
      [.text ['i', 'f'], .text ['e', 'l', 's', 'e'], .text ['w', 'h', 'i', 'l', 'e'], .text ['f', 'o', 'r'],
        .text ['r', 'e', 't', 'u', 'r', 'n'], .text ['n', 'e', 'w'], .text ['i', 'm', 'p', 'o', 'r', 't'],
        .text ['v', 'a', 'r'], .text ['d', 'e', 'f'], .text ['t', 'r', 'u', 'e'],
        .text ['f', 'a', 'l', 's', 'e'], .text ['n', 'u', 'l', 'l']])
    (.notAhead identChar)

/-! ## Number and text literals -/

/-- A run of decimal digits. -/
def digits : Pattern := plus (.one .digit)

/-- The exponent of a floating-point literal. -/
def exponent : Pattern :=
  all [first [.text ['e'], .text ['E']], .opt (first [.text ['+'], .text ['-']]), digits]

/-- The letter that marks a literal as floating-point. -/
def doubleMark : Pattern := first [.text ['d'], .text ['D'], .text ['f'], .text ['F']]

/-- A text between two equal quotes; a backslash takes the next character along. -/
def quoted (quote : Char) : Pattern :=
  all
    [.text [quote],
      .star (first [.seq (.text ['\\']) (.one .any), .seq (.notAhead (.text [quote])) (.one .any)]),
      .text [quote]]

/-! ## Choices without a node of their own -/

/-- An assignment, or an expression. -/
def exprOrAssign : Pattern := first [.rule .assignment, .rule .expression]

/-- Arguments, with commas between them. -/
def args : Pattern := separated exprOrAssign [',']

/-- A statement that ends by itself. -/
def compoundStmt : Pattern :=
  first [.rule .ifStmt, .rule .whileStmt, .rule .foreachStmt, .rule .forStmt, .rule .block]

/-- A statement that a semicolon ends. -/
def simpleStmt : Pattern :=
  first [.rule .returnStmt, .rule .importStmt, .rule .declaration, exprOrAssign]

/-- What a declaration starts with: a type, or the keyword of an untyped one. -/
def typeOrVar : Pattern := first [.rule .kwVar, .rule .typeExpr]

/-- A literal. -/
def literal : Pattern :=
  first [.rule .double, .rule .long, .rule .integer, .rule .string, .rule .boolean, .rule .null]

/-- An operand before its postfix operators. -/
def primary : Pattern :=
  first
    [.rule .newArray, .rule .newSizedArray, .rule .newObject, .rule .inlineMap, .rule .inlineList,
      .rule .inlineArray, .rule .paren, .rule .call, literal, .rule .ident]

/-- An operator in front of an operand. -/
def prefixOp : Pattern := first [.rule .castOp, .rule .negOp, .rule .notOp]

/-- An operator after an operand. -/
def postfixOp : Pattern :=
  first [.rule .methodCall, .rule .field, .rule .index, .rule .incr, .rule .decr]

/-- An operator between two operands. -/
def infixOp : Pattern :=
  first
    [.rule .orOp, .rule .andOp, .rule .eqOp, .rule .neOp, .rule .leOp, .rule .geOp, .rule .ltOp,
      .rule .gtOp, .rule .addOp, .rule .subOp, .rule .mulOp, .rule .divOp, .rule .remOp]

/-- A one-character operator that must not run on with one of the given characters. -/
def operator (c : Char) (notBefore : List (List Char)) : Pattern :=
  .seq (.text [c]) (.notAhead (first (notBefore.map .text)))

/-! ## The rules -/

/-- The parsing expression of each rule. -/
def Rule.pattern : Rule → Pattern
  | .endOfInput => .atEnd
  | .main => .seq .nothing (.seq (.rule .statements) (.rule .endOfInput))
  | .statements =>
    .star (first
      [compoundStmt,
        .seq simpleStmt (first [.text [';'], .ahead (.text ['}']), .ahead (.rule .endOfInput)]),
        .text [';']])
  | .block => all [.text ['{'], .rule .statements, .text ['}']]
  | .body => first [.rule .block, compoundStmt, .seq simpleStmt (.opt (.text [';']))]
  | .ifStmt =>
    all [.rule .kwIf, .text ['('], exprOrAssign, .text [')'], .rule .body,
      .opt (.seq (.rule .kwElse) (.rule .body))]
  | .whileStmt => all [.rule .kwWhile, .text ['('], exprOrAssign, .text [')'], .rule .body]
  | .foreachStmt =>
    all [.rule .kwFor, .text ['('], .rule .foreachVar, .text [':'], .rule .expression, .text [')'],
      .rule .body]
  | .foreachVar => first [.seq typeOrVar (.rule .ident), .rule .ident]
  | .forStmt =>
    all [.rule .kwFor, .text ['('], .opt (.rule .forInit), .text [';'], .opt (.rule .forCond),
      .text [';'], .opt (.rule .forUpdate), .text [')'], .rule .body]
  | .forInit => first [.rule .declaration, exprOrAssign]
  | .forCond => exprOrAssign
  | .forUpdate => args
  | .returnStmt => .seq (.rule .kwReturn) (.opt exprOrAssign)
  | .importStmt => all [.rule .kwImport, .rule .qualifiedName, .opt (.rule .wildcard)]
  | .wildcard => .text ['.', '*']
  | .declaration => .seq typeOrVar (separated (.rule .declarator) [','])
  | .declarator => .seq (.rule .ident) (.opt (.seq (.rule .assignEq) exprOrAssign))
  | .assignment => all [.rule .lvalue, .rule .assignOp, exprOrAssign]
  | .lvalue => .seq primary (.star postfixOp)
  | .assignOp =>
    first [.text ['+', '='], .text ['-', '='], .text ['*', '='], .text ['/', '='], .text ['%', '='],
      .rule .assignEq]
  | .assignEq => operator '=' [['=']]
  | .expression => .seq (.rule .operation) (.opt (.rule .ternaryTail))
  | .ternaryTail => all [.text ['?'], exprOrAssign, .text [':'], exprOrAssign]
  | .operation =>
    all [.star prefixOp, primary, .star postfixOp,
      .star (all [infixOp, .star prefixOp, primary, .star postfixOp])]
  | .orOp => .text ['|', '|']
  | .andOp => .text ['&', '&']
  | .eqOp => .text ['=', '=']
  | .neOp => .text ['!', '=']
  | .leOp => .text ['<', '=']
  | .geOp => .text ['>', '=']
  | .ltOp => operator '<' [['=']]
  | .gtOp => operator '>' [['=']]
  | .addOp => operator '+' [['+'], ['=']]
  | .subOp => operator '-' [['-'], ['=']]
  | .mulOp => operator '*' [['=']]
  | .divOp => operator '/' [['=']]
  | .remOp => operator '%' [['=']]
  | .negOp => operator '-' [['-'], ['=']]
  | .notOp => operator '!' [['=']]
  | .castOp =>
    all [.text ['('], .rule .typeExpr, .text [')'],
      .ahead (.seq (.notAhead (first [.text ['-'], .text ['+'], .text ['[']])) primary)]
  | .methodCall => all [.text ['.'], .rule .ident, .text ['('], .opt args, .text [')']]
  | .field => .seq (.text ['.']) (.rule .ident)
  | .index => all [.text ['['], exprOrAssign, .text [']']]
  | .incr => .text ['+', '+']
  | .decr => .text ['-', '-']
  | .paren => all [.text ['('], exprOrAssign, .text [')']]
  | .call => all [.rule .ident, .text ['('], .opt args, .text [')']]
  | .newObject => all [.rule .kwNew, .rule .typeExpr, .text ['('], .opt args, .text [')']]
  | .newArray => all [.rule .kwNew, .rule .typeName, .rule .dims, .rule .inlineArray]
  | .newSizedArray => all [.rule .kwNew, .rule .typeName, .text ['['], .rule .expression, .text [']']]
  | .inlineArray => all [.text ['{'], .opt args, .text ['}']]
  | .inlineList => all [.text ['['], .opt args, .text [']']]
  | .inlineMap =>
    all [.text ['['], first [.text [':'], separated (.rule .mapEntry) [',']], .text [']']]
  | .mapEntry => all [.rule .expression, .text [':'], exprOrAssign]
  | .typeExpr => .seq (.rule .typeName) (.opt (.rule .dims))
  | .typeName => .seq (.rule .qualifiedName) (.opt (.rule .typeArgs))
  | .typeArgs => all [.text ['<'], separated (.rule .typeExpr) [','], .text ['>']]
  | .dims => plus (.seq (.text ['[']) (.text [']']))
  | .qualifiedName => .seq (.rule .ident) (.star (.seq (.text ['.']) (.rule .ident)))
  | .double =>
    .seq
      (first
        [all [digits, .text ['.'], digits, .opt exponent, .opt doubleMark],
          all [digits, exponent, .opt doubleMark],
          .seq digits doubleMark])
      (.notAhead identChar)
  | .long => all [digits, first [.text ['L'], .text ['l']], .notAhead identChar]
  | .integer => .seq digits (.notAhead identChar)
  | .string => first [quoted '\'', quoted '"']
  | .boolean =>
    .seq (first [.text ['t', 'r', 'u', 'e'], .text ['f', 'a', 'l', 's', 'e']]) (.notAhead identChar)
  | .null => word ['n', 'u', 'l', 'l']
  | .ident =>
    all [.notAhead keyword, first [.one .letter, .text ['_'], .text ['$']], .star identChar]
  | .kwIf => word ['i', 'f']
  | .kwElse => word ['e', 'l', 's', 'e']
  | .kwWhile => word ['w', 'h', 'i', 'l', 'e']
  | .kwFor => word ['f', 'o', 'r']
  | .kwReturn => word ['r', 'e', 't', 'u', 'r', 'n']
  | .kwNew => word ['n', 'e', 'w']
  | .kwImport => word ['i', 'm', 'p', 'o', 'r', 't']
  | .kwVar => .seq (first [.text ['v', 'a', 'r'], .text ['d', 'e', 'f']]) (.notAhead identChar)

end HostExpr
