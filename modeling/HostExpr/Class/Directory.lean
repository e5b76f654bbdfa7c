import HostExpr.Class.Lookup
import HostExpr.Names.Table

/-!
# Classes by name

The classes that programs can name: the built-in ones under their names and aliases, and those that the host
registers, each under its simple and its qualified name. A later registration under a name replaces an earlier
one.
-/

namespace HostExpr

/-- The classes that programs can name, and all that were ever registered. -/
structure Directory where
  byName : Table ClassRef
  registered : List ClassRef
deriving Inhabited

namespace Builtin

/-- The names of built-in classes that are neither simple nor qualified ones. -/
def aliases : Builtin → List String
  | boolean => ["boolean"]
  | integer => ["int"]
  | long => ["long"]
  | double => ["double"]
  | list => ["ArrayList", "java.util.ArrayList"]
  | map => ["HashMap", "java.util.HashMap"]
  | _ => []

/-- All built-in classes. -/
def all : List Builtin :=
  [object, boolean, integer, long, double, string, list, map, cls, null, array]

end Builtin

namespace Directory

/-- Register a class under its simple and its qualified name. -/
def register (cs : Classes) (d : Directory) (c : ClassRef) : Directory where
  byName := (d.byName.put (cs.name c) c).put (cs.qualifiedName c) c
  registered := if c ∈ d.registered then d.registered else d.registered ++ [c]

/-- The directory of the built-in classes. -/
def builtin : Directory :=
  Builtin.all.foldl
    (fun d b =>
      let d := d.register .builtinOnly (.builtin b)
      { d with byName := b.aliases.foldl (fun t other => t.put other (.builtin b)) d.byName })
    ⟨[], []⟩

/-- The class of a name. -/
def get? (d : Directory) (name : String) : Option ClassRef := d.byName.get? name

/-- The classes of a package. -/
def inPackage (cs : Classes) (d : Directory) (package : String) : List ClassRef :=
  d.registered.filter fun c => (cs.get c).package? = some package

end Directory

end HostExpr
