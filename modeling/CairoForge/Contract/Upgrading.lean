import CairoForge.Contract.Access

/-!
# Upgrading

A contract behind a proxy is initialized by a call and not by its constructor,
and offers an entry point that replaces the implementation.

## Main definitions

* `initializeGuard` — the statement that lets an initializer run only once.
* `Contract.makeUpgradeable` — put a contract behind a proxy.
-/

namespace CairoForge

/-- The statement that lets an initializer run only once. -/
def initializeGuard : String := "Initializable_initialize()"

/-- The module behind `initializeGuard`. -/
def BaseModule.initializable : BaseModule where
  name := Contract.initializableName
  path := "contracts/upgrades/Initializable_base"
  initializer := .implicit
  symbols := ["Initializable_initialize"]

/-- The module of the proxy. -/
def BaseModule.proxy : BaseModule where
  name := "Proxy"
  path := "contracts/upgrades/Proxy_base"

/-- Replace the implementation. -/
def FunctionTemplate.upgrade : FunctionTemplate where
  base? := some "Proxy"
  name := "upgrade"
  implicitArgs := Argument.implicits
  args := [⟨"new_implementation", some "felt"⟩]
  kind? := some .external

/-- Put a contract behind a proxy if `upgradeable` is set, else leave it alone.
Upgrades are restricted to the `UPGRADER` role or the owner, and the owner
administers the proxy. -/
def Contract.makeUpgradeable (c : Contract) (upgradeable : Bool) (mode : AccessMode) :
    Contract :=
  if upgradeable then
    let c := c.setUpgradeable true
    let (_, c) := c.addParent .initializable []
    let c := c.restrict .upgrade mode "UPGRADER"
    (c.addParent .proxy [.literal "owner"]).2
  else c

end CairoForge
