import CairoForge.Contract.Access

/-!
# Pausing

A contract that can be paused guards every entry point that changes its state,
and offers entry points to pause it and to resume.

## Main definitions

* `notPausedGuard` — the guard.
* `Contract.makePausable` — guard entry points and add the switch.
-/

namespace CairoForge

/-- The module behind pausing. -/
def BaseModule.pausable : BaseModule where
  name := "Pausable"
  path := "contracts/security/Pausable_base"
  initializer := .implicit
  symbols := ["Pausable_when_not_paused"]

/-- The guard of an entry point that must not run while the contract is paused. -/
def notPausedGuard : String := "Pausable_when_not_paused()"

namespace FunctionTemplate

/-- Is the contract paused? -/
def paused : FunctionTemplate where
  base? := some "Pausable"
  name := "paused"
  implicitArgs := Argument.implicits
  returns? := some [⟨"paused", some "felt"⟩]
  kind? := some .view

/-- Pause the contract. -/
def pause : FunctionTemplate where
  base? := some "Pausable"
  name := "pause"
  implicitArgs := Argument.implicits
  kind? := some .external

/-- Resume the contract. -/
def unpause : FunctionTemplate where
  base? := some "Pausable"
  name := "unpause"
  implicitArgs := Argument.implicits
  kind? := some .external

end FunctionTemplate

/-- Make a contract pausable. Every given entry point gets the guard; pausing and
resuming are restricted to the `PAUSER` role or the owner. -/
def Contract.makePausable (c : Contract) (mode : AccessMode) (entries : List FunctionTemplate) :
    Contract :=
  let (_, c) := c.addParent .pausable []
  let c := entries.foldl (fun c entry => c.addModifier notPausedGuard entry) c
  let c := c.addFunction .paused
  let c := c.restrict .pause mode "PAUSER"
  c.restrict .unpause mode "PAUSER"

end CairoForge
