import CairoForge.Binary64.Rounding
import CairoForge.Contract.Pausing
import CairoForge.Contract.Upgrading
import CairoForge.Token.EntryPoint
import CairoForge.Token.Options

/-!
# Assembly of a token

A token is built from valid options in a fixed order: the base with its standard
entry points, the extensions, pausing, the proxy, the metadata. Pausing guards
what is there before it, so every extension that changes state comes first.

## Main definitions

* `Contract.addTokenBase` … `Contract.addFlashMint` — the base and the extensions.
* `TokenOptions.pausedEntryPoints` — what pausing guards.
* `TokenOptions.build` — the contract of a token.
-/

namespace CairoForge

namespace BaseModule

def erc20 : BaseModule where
  name := "ERC20"
  path := "contracts/token/ERC20_base"

def erc20Burnable : BaseModule where
  name := "ERC20Burnable"
  path := "contracts/token/ERC20/extensions/ERC20Burnable_base"
  initializer := .implicit

def erc20Snapshot : BaseModule where
  name := "ERC20Snapshot"
  path := "contracts/token/ERC20/extensions/ERC20Snapshot_base"
  initializer := .implicit

def erc20Permit : BaseModule where
  name := "ERC20Permit"
  path := "contracts/token/ERC20/extensions/ERC20Permit_base"

def erc20Votes : BaseModule where
  name := "ERC20Votes"
  path := "contracts/token/ERC20/extensions/ERC20Votes_base"
  initializer := .implicit

def erc20FlashMint : BaseModule where
  name := "ERC20FlashMint"
  path := "contracts/token/ERC20/extensions/ERC20FlashMint_base"
  initializer := .implicit

end BaseModule

namespace Contract

/-- Mention several functions in order. -/
def addFunctions (c : Contract) (templates : List FunctionTemplate) : Contract :=
  templates.foldl addFunction c

/-- The base of a token with its standard entry points. -/
def addTokenBase (c : Contract) (o : TokenOptions) : Contract :=
  let (_, c) := c.addParent .erc20
    [.text o.name, .text o.symbol, .number (.ofNat o.decimals.toNat), .literal "initial_supply",
      .literal "recipient"]
  c.addFunctions EntryPoint.standard

/-- Holders can destroy what they hold. -/
def addBurning (c : Contract) : Contract :=
  let (_, c) := c.addParent .erc20Burnable []
  c.addFunction EntryPoint.burn

/-- Balances can be recorded by the owner or the holders of `SNAPSHOT`. -/
def addSnapshots (c : Contract) (mode : AccessMode) : Contract :=
  let (_, c) := c.addParent .erc20Snapshot []
  let c := c.restrict EntryPoint.snapshot mode "SNAPSHOT"
  c.addFunction EntryPoint.balanceOfAt

/-- Tokens can be created by the owner or the holders of `MINTER`. -/
def addMinting (c : Contract) (mode : AccessMode) : Contract :=
  c.restrict EntryPoint.mint mode "MINTER"

/-- Holders can approve by signature. -/
def addPermit (c : Contract) (name : String) : Contract :=
  let (_, c) := c.addParent .erc20Permit [.text name]
  c.addFunctions [EntryPoint.permit, EntryPoint.nonces]

/-- Balances count as votes. Votes are delegated by signature, so a contract
without `addPermit` is refused. -/
def addVotes (c : Contract) : Except Refusal Contract :=
  if c.hasParent BaseModule.erc20Permit.name then
    let (_, c) := c.addParent .erc20Votes []
    .ok (c.addFunctions [EntryPoint.delegate, EntryPoint.delegates, EntryPoint.getVotes])
  else
    .error (.options (FieldMessages.empty.set "votes"
      "Missing ERC20Permit requirement for ERC20Votes"))

/-- Tokens can be lent within one call. -/
def addFlashMint (c : Contract) : Contract :=
  let (_, c) := c.addParent .erc20FlashMint []
  c.addFunctions [EntryPoint.flashLoan, EntryPoint.maxFlashLoan]

end Contract

namespace TokenOptions

/-- The entry points that must not run while the token is paused: those of every
token that change its state, then those of the chosen extensions. -/
def pausedEntryPoints (o : TokenOptions) : List FunctionTemplate :=
  [EntryPoint.transfer, EntryPoint.transferFrom, EntryPoint.approve,
      EntryPoint.increaseAllowance, EntryPoint.decreaseAllowance] ++
    (if o.burnable then [EntryPoint.burn] else []) ++
    (if o.mintable then [EntryPoint.mint] else []) ++
    (if o.permit then [EntryPoint.permit] else []) ++
    (if o.flashmint then [EntryPoint.flashLoan] else [])

/-- The contract of a token. Options at fault are refused before there is one. -/
def build (o : TokenOptions) : Except Refusal Contract := do
  o.validate
  let mode := o.shared.access
  let c := Contract.new o.name
  let c := c.addConstructorArg (EntryPoint.wide "initial_supply")
  let c := c.addConstructorArg (EntryPoint.felt "recipient")
  let c := c.addTokenBase o
  let c := if o.burnable then c.addBurning else c
  let c := if o.snapshots then c.addSnapshots mode else c
  let c := if o.mintable then c.addMinting mode else c
  let c := if o.permit then c.addPermit o.name else c
  let c ← if o.votes then c.addVotes else pure c
  let c := if o.flashmint then c.addFlashMint else c
  let c := if o.pausable then c.makePausable mode o.pausedEntryPoints else c
  let c := c.makeUpgradeable o.shared.upgradeable mode
  c.describe o.shared.info

end TokenOptions

end CairoForge
