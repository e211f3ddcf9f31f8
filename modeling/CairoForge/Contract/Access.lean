import CairoForge.Contract

/-!
# Access control

Entry points are guarded for one owner or for the holders of roles. The guard of
an entry point is a modifier; the base module behind it, the `owner` argument of
the constructor, the declaration of a role and its grant are added with the first
guard that needs them.

## Main definitions

* `AccessMode` — one owner, or roles.
* `Contract.restrict` — guard an entry point.

## Main results

* `Contract.restrict_eq` — everything that a guard adds to a contract.
-/

namespace CairoForge

/-- Who may call a guarded entry point. -/
inductive AccessMode where
  /-- The owner. -/
  | ownable
  /-- Every holder of the role of the entry point. -/
  | roles
  deriving DecidableEq

namespace AccessMode

/-- All modes. -/
def all : List AccessMode := [ownable, roles]

/-- The word for a mode. -/
def name : AccessMode → String
  | ownable => "ownable"
  | roles => "roles"

/-- The mode that a word stands for. -/
def ofName? (word : String) : Option AccessMode :=
  all.find? (·.name == word)

/-- What is said of a word that stands for no mode. -/
def unknownMessage (word : String) : String :=
  "unknown access mode '" ++ word ++ "' (expected ownable or roles)"

theorem ofName?_name (mode : AccessMode) : ofName? mode.name = some mode := by
  cases mode <;> decide

end AccessMode

namespace BaseModule

/-- The module behind a single owner. -/
def ownable : BaseModule where
  name := "Ownable"
  path := "contracts/Ownable_base"
  symbols := ["Ownable_only_owner"]

/-- The module behind roles. -/
def accessControl : BaseModule where
  name := "AccessControl"
  path := "contracts/AccessControl_base"
  symbols := ["AccessControl_only_role", "AccessControl_grant_role", "DEFAULT_ADMIN_ROLE"]

end BaseModule

/-- The account that becomes the owner or gets the first grants. -/
def Argument.owner : Argument := ⟨"owner", some "felt"⟩

/-- The constant that stands for a role. -/
def roleConstant (role : String) : String :=
  role ++ "_ROLE"

/-- The declaration of a role. -/
def roleDeclaration (role : String) : String :=
  "const " ++ roleConstant role ++ " = '" ++ roleConstant role ++ "'"

/-- The statement that grants the role behind a constant to the owner. -/
def grantStatement (constant : String) : String :=
  "AccessControl_grant_role(" ++ constant ++ ", owner)"

/-- The guard of an entry point for a mode and a role. -/
def AccessMode.guardStatement (role : String) : AccessMode → String
  | ownable => "Ownable_only_owner()"
  | roles => "AccessControl_only_role(" ++ roleConstant role ++ ")"

namespace Contract

/-- The base module of a single owner; its first addition adds the owner. -/
def requireOwner (c : Contract) : Contract :=
  let (isNew, c) := c.addParent .ownable [.literal "owner"]
  if isNew then c.addConstructorArg .owner else c

/-- The base module of roles; its first addition adds the owner and makes it the
administrator of all roles. -/
def requireRoles (c : Contract) : Contract :=
  let (isNew, c) := c.addParent .accessControl []
  if isNew then
    (c.addConstructorArg .owner).addConstructorCode (grantStatement "DEFAULT_ADMIN_ROLE")
  else c

/-- The declaration of a role; the first one grants the role to the owner. -/
def requireRole (c : Contract) (role : String) : Contract :=
  let (isNew, c) := c.addVariable (roleDeclaration role)
  if isNew then c.addConstructorCode (grantStatement (roleConstant role)) else c

/-- Guard an entry point: only the owner, or only holders of the role, may call
it. What the guard relies on is added unless it is there already. -/
def restrict (c : Contract) (entry : FunctionTemplate) (mode : AccessMode) (role : String) :
    Contract :=
  let c :=
    match mode with
    | .ownable => c.requireOwner
    | .roles => c.requireRoles.requireRole role
  c.addModifier (mode.guardStatement role) entry

/-! ## What a guard adds -/

end Contract

/-- The base module that the guards of a mode rely on, as it is added. -/
def AccessMode.parent : AccessMode → Parent
  | ownable => ⟨.ownable, [.literal "owner"]⟩
  | roles => ⟨.accessControl, []⟩

namespace Contract

/-- The grants that come with a guard: the first guard by a role makes the owner administrator,
and the first one by this role grants it. -/
def newGrants (c : Contract) (role : String) : AccessMode → List String
  | .ownable => []
  | .roles =>
    (if c.hasParent "AccessControl" then [] else [grantStatement "DEFAULT_ADMIN_ROLE"]) ++
      (if c.variableRegistry.contains (roleDeclaration role) then []
        else [grantStatement (roleConstant role)])

/-- **Everything a guard adds**: the modifier, the base module behind it, the owner and the grants
where they are missing, and the declaration of the role. -/
theorem restrict_eq (c : Contract) (entry : FunctionTemplate) (mode : AccessMode)
    (role : String) :
    c.restrict entry mode role =
      { c with
        parentRegistry := c.parentRegistry.put mode.parent
        constructorArgs :=
          c.constructorArgs ++ (if c.hasParent mode.parent.base.name then [] else [.owner])
        constructorCode := c.constructorCode ++ c.newGrants role mode
        variableRegistry :=
          match mode with
          | .ownable => c.variableRegistry
          | .roles => c.variableRegistry.put (roleDeclaration role)
        functionRegistry :=
          c.functionRegistry.put
            ((c.functionOrFresh entry).attach (mode.guardStatement role)) } := by
  -- the owner is added with the base module, a grant with what was new
  cases mode with
  | ownable =>
    unfold restrict requireOwner
    cases h : c.hasParent "Ownable" <;>
      simp [addParent, addModifier, putFunction, functionOrFresh, function?, newGrants,
        addConstructorArg, AccessMode.parent, BaseModule.ownable, h]
  | roles =>
    unfold restrict requireRoles requireRole
    cases h : c.hasParent "AccessControl" <;>
      cases hrole : c.variableRegistry.contains (roleDeclaration role) <;>
        simp [addParent, addModifier, addVariable, putFunction, functionOrFresh, function?,
          newGrants, addConstructorArg, addConstructorCode, AccessMode.parent,
          BaseModule.accessControl, h, hrole]

end Contract

end CairoForge
