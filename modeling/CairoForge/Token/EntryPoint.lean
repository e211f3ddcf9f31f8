import CairoForge.Function

/-!
# Entry points of a token

The functions of a fungible token and of its extensions. Each one calls the
function of the same name in the base module that provides it.

## Main definitions

* `EntryPoint.viewing`, `EntryPoint.acting`, `EntryPoint.succeeding` — the three
  shapes: a query, an action, and an action that answers that it succeeded.
* `EntryPoint.standard` — the entry points of every token.
-/

namespace CairoForge

namespace EntryPoint

/-- A value of the small word type. -/
def felt (name : String) : Argument := ⟨name, some "felt"⟩

/-- A value of the wide integer type. -/
def wide (name : String) : Argument := ⟨name, some "Uint256"⟩

/-- A pointer to words. -/
def pointer (name : String) : Argument := ⟨name, some "felt*"⟩

/-- A query. -/
def viewing (base name : String) (args returns : List Argument) : FunctionTemplate where
  base? := some base
  name := name
  implicitArgs := Argument.implicits
  args := args
  returns? := some returns
  kind? := some .view

/-- An action without an answer. -/
def acting (base name : String) (args : List Argument) : FunctionTemplate where
  base? := some base
  name := name
  implicitArgs := Argument.implicits
  args := args
  kind? := some .external

/-- An action that answers that it succeeded. -/
def succeeding (base name : String) (args : List Argument) : FunctionTemplate where
  base? := some base
  name := name
  implicitArgs := Argument.implicits
  args := args
  returns? := some [felt "success"]
  returnValue? := some "1"
  kind? := some .external

/-! ## Every token -/

def name : FunctionTemplate := viewing "ERC20" "name" [] [felt "name"]

def symbol : FunctionTemplate := viewing "ERC20" "symbol" [] [felt "symbol"]

def totalSupply : FunctionTemplate := viewing "ERC20" "totalSupply" [] [wide "totalSupply"]

def decimals : FunctionTemplate := viewing "ERC20" "decimals" [] [felt "decimals"]

def balanceOf : FunctionTemplate := viewing "ERC20" "balanceOf" [felt "account"] [wide "balance"]

def allowance : FunctionTemplate :=
  viewing "ERC20" "allowance" [felt "owner", felt "spender"] [wide "remaining"]

def transfer : FunctionTemplate :=
  succeeding "ERC20" "transfer" [felt "recipient", wide "amount"]

def transferFrom : FunctionTemplate :=
  succeeding "ERC20" "transferFrom" [felt "sender", felt "recipient", wide "amount"]

def approve : FunctionTemplate :=
  succeeding "ERC20" "approve" [felt "spender", wide "amount"]

def increaseAllowance : FunctionTemplate :=
  succeeding "ERC20" "increaseAllowance" [felt "spender", wide "added_value"]

def decreaseAllowance : FunctionTemplate :=
  succeeding "ERC20" "decreaseAllowance" [felt "spender", wide "subtracted_value"]

/-- The entry points of every token, in their order. -/
def standard : List FunctionTemplate :=
  [name, symbol, totalSupply, decimals, balanceOf, allowance, transfer, transferFrom, approve,
    increaseAllowance, decreaseAllowance]

/-! ## Extensions -/

def mint : FunctionTemplate := acting "ERC20" "mint" [felt "to", wide "amount"]

def burn : FunctionTemplate := acting "ERC20Burnable" "burn" [wide "amount"]

def snapshot : FunctionTemplate := acting "ERC20Snapshot" "snapshot" []

def balanceOfAt : FunctionTemplate :=
  viewing "ERC20Snapshot" "balanceOfAt" [felt "account", felt "snapshot_id"] [wide "balance"]

def permit : FunctionTemplate :=
  acting "ERC20Permit" "permit"
    [felt "owner", felt "spender", wide "amount", felt "deadline", felt "signature_len",
      pointer "signature"]

def nonces : FunctionTemplate := viewing "ERC20Permit" "nonces" [felt "owner"] [felt "nonce"]

def delegate : FunctionTemplate := acting "ERC20Votes" "delegate" [felt "delegatee"]

def delegates : FunctionTemplate :=
  viewing "ERC20Votes" "delegates" [felt "account"] [felt "delegatee"]

def getVotes : FunctionTemplate := viewing "ERC20Votes" "getVotes" [felt "account"] [wide "votes"]

def flashLoan : FunctionTemplate :=
  succeeding "ERC20FlashMint" "flashLoan"
    [felt "receiver", felt "token", wide "amount", felt "data_len", pointer "data"]

def maxFlashLoan : FunctionTemplate :=
  viewing "ERC20FlashMint" "maxFlashLoan" [felt "token"] [wide "amount"]

end EntryPoint

end CairoForge
