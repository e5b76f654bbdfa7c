import HostExpr.Engine.Error
import HostExpr.Typing.Link

/-!
# The layout of images

A typed program and its environment are written as a row of fields: numbers, texts, tags that say which kind of node
or whether a part follows, and the names of classes and functions. A name is looked up as soon as it has been read,
that of a type once its type arguments have been read too. The layout gives the length of an image, and what an image
with too few bytes fails with: a name that nothing has, or the end of the bytes, whichever comes first.

A number takes a byte for every seven bits; an integer that may be negative is written as twice its size, less one if
it is negative; a text is written as its length and its bytes.
-/

namespace HostExpr

/-- The names under which classes and functions are written. -/
structure Naming where
  cls : ClassRef → String
  function : Nat → String

/-- A step of reading an image: bytes are taken from it, or a name is looked up. -/
inductive ImageField
  | bytes (count : Nat)
  | cls (c : ClassRef)
  | function (index : Nat)
deriving DecidableEq, Repr

namespace ImageField

/-- A tag or a truth value. -/
def tag : ImageField := bytes 1

/-- How many bytes a number takes. -/
def numberLength (n : Nat) : Nat := n.log2 / 7 + 1

/-- A number. -/
def number (n : Nat) : ImageField := bytes (numberLength n)

/-- An integer that may be negative. -/
def integer (i : Int) : ImageField := number (if 0 ≤ i then 2 * i.natAbs else 2 * i.natAbs - 1)

/-- A text. -/
def text (s : String) : ImageField := bytes (numberLength s.utf8ByteSize + s.utf8ByteSize)

/-- A part that may be missing. -/
def optional {α : Type} (fields : α → List ImageField) : Option α → List ImageField
  | none => [tag]
  | some a => tag :: fields a

/-- Parts under names. -/
def table {α : Type} (fields : α → List ImageField) (t : Table α) : List ImageField :=
  number t.length :: t.flatMap fun (name, a) => text name :: fields a

/-- How many bytes fields take. -/
def totalLength : List ImageField → Nat
  | [] => 0
  | bytes n :: rest => n + totalLength rest
  | _ :: rest => totalLength rest

/-- What reading fields fails with if `available` bytes are there and names are looked up by `l`. -/
def firstFailure? (l : Linker) : Nat → List ImageField → Option ImageError
  | _, [] => none
  | available, bytes n :: rest =>
    if available < n then some .truncatedBody else firstFailure? l (available - n) rest
  | available, cls c :: rest =>
    if (l.cls c).isSome then firstFailure? l available rest else some .unlinked
  | available, function f :: rest =>
    if (l.function f).isSome then firstFailure? l available rest else some .unlinked

end ImageField

namespace Naming

open ImageField

/-! ## Types and environments -/

/-- A class by name. -/
def classFields (n : Naming) (c : ClassRef) : List ImageField := [text (n.cls c), .cls c]

/-- A function by name. -/
def functionFields (n : Naming) (f : Nat) : List ImageField := [text (n.function f), .function f]

mutual

/-- A type. -/
def typeFields (n : Naming) : Ty → List ImageField
  | .mk c args => text (n.cls c) :: number args.length :: (typesFields n args ++ [.cls c])

/-- Types in a row. -/
def typesFields (n : Naming) : List Ty → List ImageField
  | [] => []
  | t :: ts => typeFields n t ++ typesFields n ts

end

/-- An import. -/
def importFields (n : Naming) : Import → List ImageField
  | .cls c => tag :: n.classFields c
  | .function f => tag :: n.functionFields f

/-- An environment. -/
def environmentFields (n : Naming) (env : Environment) : List ImageField :=
  table n.typeFields env.vars ++ table n.typeFields env.inputs ++ table n.importFields env.imports
    -- the three flags
    ++ [tag, tag, tag]
    ++ optional n.typeFields env.context? ++ optional (fun _ => [tag]) env.strategy?
    ++ number env.lastTypeParams.length :: n.typesFields env.lastTypeParams
    ++ number env.blockDeclared.length :: env.blockDeclared.map text

/-! ## Programs -/

/-- The type and span of a node, and the tag of its kind. -/
def infoFields (n : Naming) (i : Typed.Info) : List ImageField :=
  n.typeFields i.type ++ [number i.span.start, number i.span.stop, tag]

/-- A literal. -/
def literalFields : Syntax.Literal → List ImageField
  | .null => [tag]
  | .bool _ => [tag, tag]
  | .int i => [tag, integer i.toInt]
  | .long l => [tag, integer l.toInt]
  | .double _ => [tag, bytes 8]
  | .str s => [tag, text s]

/-- The operator of an assignment. -/
def assignOpFields : AssignOp → List ImageField
  | .plain => [tag]
  | .compound _ => [tag, tag]

open Typed

mutual

/-- An expression. -/
def exprFields (n : Naming) : Expr → List ImageField
  | .constant i v => n.infoFields i ++ literalFields v
  | .declared i name => n.infoFields i ++ [text name]
  | .input i name site => n.infoFields i ++ [text name, number site]
  | .this i => n.infoFields i
  | .classRef i c => n.infoFields i ++ n.classFields c
  | .staticField i c field => n.infoFields i ++ n.classFields c ++ [text field]
  | .property i receiver name site =>
    n.infoFields i ++ exprFields n receiver ++ [text name, number site]
  | .methodCall i receiver name args site =>
    n.infoFields i ++ exprFields n receiver ++ text name :: number args.length :: exprsFields n args
      ++ [number site]
  | .functionCall i f args =>
    n.infoFields i ++ n.functionFields f ++ number args.length :: exprsFields n args
  | .convert i v target => n.infoFields i ++ exprFields n v ++ exprFields n target
  | .index i receiver position site =>
    n.infoFields i ++ exprFields n receiver ++ exprFields n position ++ [number site]
  | .assign i target op v stored =>
    n.infoFields i ++ exprFields n target ++ assignOpFields op ++ exprFields n v
      ++ optional n.typeFields stored
  | .arith i _ left right | .logic i _ left right | .compare i _ left right =>
    n.infoFields i ++ tag :: exprFields n left ++ exprFields n right
  | .unary i _ e => n.infoFields i ++ tag :: exprFields n e
  | .step i _ target => n.infoFields i ++ exprFields n target ++ [tag]
  | .cast i t e | .newSized i t e => n.infoFields i ++ n.typeFields t ++ exprFields n e
  | .conditional i c a b => n.infoFields i ++ exprFields n c ++ exprFields n a ++ exprFields n b
  | .construct i c args chosen =>
    n.infoFields i ++ n.classFields c ++ number args.length :: exprsFields n args
      ++ optional (fun place => [number place]) chosen
  | .newArray i t items =>
    n.infoFields i ++ n.typeFields t ++ number items.length :: exprsFields n items
  | .inlineList i items => n.infoFields i ++ number items.length :: exprsFields n items
  | .inlineMap i entries => n.infoFields i ++ number entries.length :: entriesFields n entries

/-- Expressions in a row. -/
def exprsFields (n : Naming) : List Expr → List ImageField
  | [] => []
  | e :: es => exprFields n e ++ exprsFields n es

/-- The entries of a map. -/
def entriesFields (n : Naming) : List (Expr × Expr) → List ImageField
  | [] => []
  | (k, v) :: es => exprFields n k ++ exprFields n v ++ entriesFields n es

end

mutual

/-- A statement. -/
def stmtFields (n : Naming) : Stmt → List ImageField
  | .expr e => n.exprFields e
  | .declare i name declared init _ =>
    n.infoFields i ++ text name :: optional n.typeFields declared ++ optional n.exprFields init ++ [tag]
  | .block i body => n.infoFields i ++ number body.length :: stmtsFields n body
  | .branch i cond thenBody elseBody =>
    let elseFields :=
      match elseBody with
      | some body => tag :: number body.length :: stmtsFields n body
      | none => [tag]
    n.infoFields i ++ n.exprFields cond ++ number thenBody.length :: stmtsFields n thenBody ++ elseFields
  | .whileLoop i cond body =>
    n.infoFields i ++ n.exprFields cond ++ number body.length :: stmtsFields n body
  | .forLoop i init cond update body =>
    let initFields :=
      match init with
      | some s => tag :: stmtFields n s
      | none => [tag]
    n.infoFields i ++ initFields ++ optional n.exprFields cond
      ++ number update.length :: n.exprsFields update ++ number body.length :: stmtsFields n body
  | .forEach i name declared items body =>
    n.infoFields i ++ text name :: optional n.typeFields declared ++ n.exprFields items
      ++ number body.length :: stmtsFields n body
  | .returns i e => n.infoFields i ++ optional n.exprFields e
  | .nop i => n.infoFields i

/-- Statements in a row. -/
def stmtsFields (n : Naming) : List Stmt → List ImageField
  | [] => []
  | s :: ss => stmtFields n s ++ stmtsFields n ss

end

/-- A program. -/
def programFields (n : Naming) (p : Program) : List ImageField :=
  number p.body.length :: n.stmtsFields p.body ++ n.typeFields p.egress ++ [number p.siteCount]

end Naming

end HostExpr
