import CairoForge.Value

/-!
# Base modules

A generated contract refers to library modules by name and path. A module may
have an initializer that the constructor of the contract calls, and symbols that
are imported whenever the module is used.

## Main definitions

* `BaseModule` — a library module.
* `Parent` — a module of a contract, with the arguments of its initializer.
* `Attachment` — a library attached to a type.
-/

namespace CairoForge

/-- How a base module gets initialized. -/
inductive Initializer where
  /-- The constructor of the contract calls the initializer of the module. -/
  | explicit
  /-- The module initializes itself. -/
  | implicit
  deriving DecidableEq

/-- A library module that a contract can build on. -/
structure BaseModule where
  name : String
  /-- Where the module is found, with slashes between the parts. -/
  path : String
  initializer : Initializer := .explicit
  /-- What is imported whenever the module is used. -/
  symbols : List String := []
  deriving DecidableEq

namespace BaseModule

/-- Does the constructor of the contract call an initializer of the module? -/
def hasInitializer (base : BaseModule) : Bool :=
  base.initializer == .explicit

/-- The name of the initializer. -/
def initializerSymbol (base : BaseModule) : String :=
  base.name ++ "_initializer"

/-- The path with dots between the parts, as imports write it. -/
def importPath (base : BaseModule) : String :=
  base.path.map fun c => if c = '/' then '.' else c

end BaseModule

/-- A base module of a contract, with the arguments of its initializer. -/
structure Parent where
  base : BaseModule
  params : List Value
  deriving BEq

/-- A library attached to a type. -/
structure Attachment where
  library : BaseModule
  target : String
  deriving DecidableEq

end CairoForge
