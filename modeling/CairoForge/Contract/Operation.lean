import CairoForge.Contract.Metadata
import CairoForge.Contract.Pausing
import CairoForge.Contract.Upgrading

/-!
# Runs of operations

Every way to change a contract as a value, so that a whole run is a list and what
it does to a contract is a fold.

## Main definitions

* `Operation` — the changes.
* `Operation.attempt` — what one change leaves.
* `Contract.run` — what a run leaves; a refused change is passed over, and what it
  mentioned before it was refused stays.
-/

namespace CairoForge

/-- A change of a contract. -/
inductive Operation where
  | addParent (base : BaseModule) (params : List Value)
  | addAttachment (library : BaseModule) (target : String)
  | addFunction (template : FunctionTemplate)
  | addModifier (modifier : String) (template : FunctionTemplate)
  | addCode (line : String) (template : FunctionTemplate)
  | setBody (lines : List String) (template : FunctionTemplate)
  | addConstructorArg (arg : Argument)
  | addConstructorCode (line : String)
  | addVariable (declaration : String)
  | addTag (key value : String)
  | setLicense (license : String)
  | setUpgradeable (upgradeable : Bool)
  | restrict (entry : FunctionTemplate) (mode : AccessMode) (role : String)
  | makePausable (mode : AccessMode) (entries : List FunctionTemplate)
  | makeUpgradeable (upgradeable : Bool) (mode : AccessMode)
  | describe (info : Metadata)

namespace Operation

/-- The outcome of an operation that leaves the contract as it was when refused. -/
def orUnchanged (c : Contract) : Except Refusal Contract → Contract.Attempt
  | .ok changed => { contract := changed }
  | .error refusal => { contract := c, refusal? := some refusal }

/-- What a change leaves of a contract, and why it was refused if it was. -/
def attempt (c : Contract) : Operation → Contract.Attempt
  | addParent base params => { contract := (c.addParent base params).2 }
  | addAttachment library target => { contract := c.addAttachment library target }
  | addFunction template => { contract := c.addFunction template }
  | addModifier modifier template => { contract := c.addModifier modifier template }
  | addCode line template => c.addCode line template
  | setBody lines template => c.setBody lines template
  | addConstructorArg arg => { contract := c.addConstructorArg arg }
  | addConstructorCode line => { contract := c.addConstructorCode line }
  | addVariable declaration => { contract := (c.addVariable declaration).2 }
  | addTag key value => orUnchanged c (c.addTag key value)
  | setLicense license => { contract := c.setLicense license }
  | setUpgradeable upgradeable => { contract := c.setUpgradeable upgradeable }
  | restrict entry mode role => { contract := c.restrict entry mode role }
  | makePausable mode entries => { contract := c.makePausable mode entries }
  | makeUpgradeable upgradeable mode => { contract := c.makeUpgradeable upgradeable mode }
  | describe info => orUnchanged c (c.describe info)

end Operation

/-- What a run of changes leaves of a contract. -/
def Contract.run (c : Contract) (operations : List Operation) : Contract :=
  operations.foldl (fun c operation => (operation.attempt c).contract) c

theorem Contract.run_nil (c : Contract) : c.run [] = c := rfl

theorem Contract.run_cons (c : Contract) (operation : Operation) (rest : List Operation) :
    c.run (operation :: rest) = (operation.attempt c).contract.run rest := rfl

theorem Contract.run_append (c : Contract) (first second : List Operation) :
    c.run (first ++ second) = (c.run first).run second :=
  List.foldl_append

end CairoForge
