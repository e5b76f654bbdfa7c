import HostExpr.Class.Directory
import HostExpr.Member.Site
import HostExpr.Names.Table

/-!
# Environments

What is known about the names of a program: the variables that it declares, the values that the caller has to
supply, and the imported classes and functions. An analysis starts from a configuration and adds what it learns.
-/

namespace HostExpr

/-- A class or a host function that a name stands for. -/
inductive Import
  | cls (c : ClassRef)
  | function (index : Nat)
deriving DecidableEq, Repr, Inhabited

/-- The static type of an import that is used as a value. -/
def Import.type : Import → Ty
  | cls c => .classOf c
  | function _ => .object

/-- The settings that an analysis starts from. -/
structure Config where
  /-- Reject what cannot be resolved. -/
  strong : Bool
  /-- Reject names that would become inputs, and with `strong` also members of receivers of unknown type. -/
  strict : Bool
  /-- Stop after the analysis. -/
  verifyOnly : Bool
  imports : Table Import
  inputs : Table Ty
  context? : Option Ty
  strategy? : Option Strategy
deriving Inhabited

/-- The settings that ask for nothing. -/
def Config.default : Config := ⟨false, false, false, [], [], none, none⟩

/-- What is known about the names of a program. Of the settings, the imports and inputs grow. -/
structure Environment extends Config where
  vars : Table Ty
  /-- The type arguments of the parameterized type that was met last. -/
  lastTypeParams : List Ty
  /-- The names declared in some block so far. -/
  blockDeclared : List String
deriving Inhabited

namespace Environment

/-- The environment before an analysis. -/
def ofConfig (c : Config) : Environment := ⟨c, [], [], []⟩

/-- Remember type arguments, if there are any. -/
def rememberParams (env : Environment) (params : List Ty) : Environment :=
  if params.isEmpty then env else { env with lastTypeParams := params }

/-- Declare a variable. It is no input any more. -/
def declare (env : Environment) (name : String) (type : Ty) : Environment :=
  { env with inputs := env.inputs.erase name, vars := env.vars.put name type }

/-- Ask the caller for a value, unless the name is a variable. -/
def addInput (env : Environment) (name : String) (type : Ty) : Environment :=
  if env.vars.has name then env else { env with inputs := env.inputs.put name type }

/-- Let a name stand for a class or function. -/
def addImport (env : Environment) (name : String) (what : Import) : Environment :=
  { env with imports := env.imports.put name what }

/-- Remember that a name was declared in a block. -/
def noteBlockName (env : Environment) (name : String) : Environment :=
  if name ∈ env.blockDeclared then env else { env with blockDeclared := name :: env.blockDeclared }

end Environment

end HostExpr
