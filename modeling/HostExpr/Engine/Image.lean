import HostExpr.Engine.Basic
import HostExpr.Engine.Layout

/-!
# Images

The written form of a compiled expression. Behind a header, which marks it as an image of a version, the image holds
the program and its environment, with classes and functions by name: it is linked to those that the engine which
reads it has under these names. What call sites have found is not written.
-/

namespace HostExpr

/-- What an image holds behind its header, with the names of the classes and functions it mentions. -/
structure Document where
  program : Typed.Program
  env : Environment
  isSetter : Bool
  names : Naming

namespace Document

/-- The fields that a document is written as. -/
def fields (d : Document) : List ImageField :=
  d.names.programFields d.program ++ d.names.environmentFields d.env ++ [.tag]

/-- How many bytes a document takes. -/
def length (d : Document) : Nat := ImageField.totalLength d.fields

end Document

/-- A written expression: the bytes of its header, what it holds behind it unless nothing of that is left, and how
many bytes are missing at the end. -/
structure Image where
  header : List UInt8
  body : Option Document
  missing : Nat

namespace Image

/-- The mark that images start with. -/
def magic : List UInt8 := [0x42, 0x52, 0x53, 0x4B]

/-- The version of images. -/
def version : UInt8 := 1

/-- The image that bytes make which are too few for any expression. -/
def ofBytes (bytes : List UInt8) : Image := ⟨bytes, none, 0⟩

/-- How many bytes are left behind the header. -/
def bodyLength (image : Image) : Nat := (image.body.map Document.length).getD 0 - image.missing

/-- The image without some bytes at its end. -/
def dropLast (image : Image) (count : Nat) : Image :=
  if count ≤ image.bodyLength then { image with missing := image.missing + count }
  else
    let kept := image.header.length - (count - image.bodyLength)
    ⟨image.header.take kept, none, 0⟩

/-- Whether the header is that of an image of the version at hand. -/
def checkHeader (image : Image) : Except ImageError Unit :=
  if magic.isPrefixOf image.header then
    match image.header.drop magic.length with
    | [] => .error .truncatedHeader
    | v :: _ => if v = version then .ok () else .error (.version v.toNat version.toNat)
  else .error .foreign

end Image

/-- Write an expression. -/
def Expression.toImage (world : World) (x : Expression) : Image where
  header := Image.magic ++ [Image.version]
  body := some {
    program := x.program
    env := x.env
    isSetter := x.isSetter
    names := {
      cls := world.classes.qualifiedName
      function := fun f => ((world.functions[f]?).map Function.name).getD "" } }
  missing := 0

namespace Engine

/-- What the names in a document stand for. -/
def linker (e : Engine) (d : Document) : Linker where
  cls c := e.directory.get? (d.names.cls c)
  function f := e.functions.get? (d.names.function f)

/-- Link a document. -/
def link (e : Engine) (d : Document) : Option Expression := do
  let l := e.linker d
  return .fresh (← l.program d.program) (← l.environment d.env) d.isSetter e.limits

/-- Why a document cannot be read of which only some bytes are there. -/
def cutFailure (e : Engine) (d : Document) (available : Nat) : ImageError :=
  (ImageField.firstFailure? (e.linker d) available d.fields).getD .truncatedBody

/-- Read an image. -/
def load (e : Engine) (image : Image) : Except EngineError Expression := do
  image.checkHeader.mapError .image
  match image.body with
  | none => throw (.image .truncatedBody)
  | some d =>
    if image.missing = 0 then
      match e.link d with
      | some x => return x
      | none => throw (.image .unlinked)
    else throw (.image (e.cutFailure d image.bodyLength))

end Engine

end HostExpr
