import CairoForge.Contract.Access
import CairoForge.Contract.Metadata

/-!
# Options of a token

What a token is to be, with a default for everything, and which options are
refused.

## Main definitions

* `SharedOptions` — what every kind of contract lets one choose.
* `TokenOptions` — what a token lets one choose.
* `TokenOptions.problems` — the fields at fault, each judged on its own.
* `TokenOptions.validate` — refuses options with a field at fault.
-/

namespace CairoForge

/-- What every kind of contract lets one choose. -/
structure SharedOptions where
  access : AccessMode := .ownable
  upgradeable : Bool := false
  info : Metadata := {}
  deriving DecidableEq

/-- What a token lets one choose. -/
structure TokenOptions where
  name : String := "MyToken"
  symbol : String := "MTK"
  decimals : UInt8 := 18
  /-- Holders can destroy what they hold. -/
  burnable : Bool := false
  /-- Balances can be recorded for later. -/
  snapshots : Bool := false
  /-- Transfers can be paused. -/
  pausable : Bool := false
  /-- New tokens can be created. -/
  mintable : Bool := false
  /-- Holders can approve by signature. -/
  permit : Bool := false
  /-- Balances count as votes; needs `permit`. -/
  votes : Bool := false
  /-- Tokens can be lent within one call. -/
  flashmint : Bool := false
  shared : SharedOptions := {}
  deriving DecidableEq

/-- The length of the longest short string. -/
def maxShortString : Nat := 31

/-- What is wrong with a text that is to stand between single quotes. -/
def shortStringProblem? (text : String) : Option String :=
  if text.toList.any (fun c => 128 ≤ c.toNat || c == '\'') then
    some "Must be ASCII without single quotes"
  else if maxShortString < text.utf8ByteSize then
    some ("Must be at most " ++ String.ofList (decimalDigits maxShortString) ++ " characters")
  else none

namespace TokenOptions

/-- What is wrong with the name. -/
def nameProblem? (o : TokenOptions) : Option String :=
  if (identifier o.name true).isEmpty then some "Not a valid identifier"
  else shortStringProblem? o.name

/-- What is wrong with the symbol. -/
def symbolProblem? (o : TokenOptions) : Option String :=
  if o.symbol.isEmpty then some "Required" else shortStringProblem? o.symbol

/-- What is wrong with the choice of votes. -/
def votesProblem? (o : TokenOptions) : Option String :=
  if o.votes && !o.permit then some "Requires permit" else none

/-- The fields at fault with their messages. -/
def problems (o : TokenOptions) : FieldMessages :=
  ((FieldMessages.empty.set? "name" o.nameProblem?).set? "symbol" o.symbolProblem?).set? "votes"
    o.votesProblem?

/-- Refuses options with a field at fault. -/
def validate (o : TokenOptions) : Except Refusal Unit :=
  if o.problems.isEmpty then .ok () else .error (.options o.problems)

/-- Options are valid when no field is at fault. -/
theorem validate_eq_ok_iff {o : TokenOptions} :
    o.validate = .ok () ↔
      o.nameProblem? = none ∧ o.symbolProblem? = none ∧ o.votesProblem? = none := by
  have hproblems : o.problems.isEmpty = true ↔
      o.nameProblem? = none ∧ o.symbolProblem? = none ∧ o.votesProblem? = none := by
    rw [problems, FieldMessages.isEmpty_set?, FieldMessages.isEmpty_set?,
      FieldMessages.isEmpty_set?, and_assoc, and_assoc]
    exact and_iff_right rfl
  rw [← hproblems, validate]
  split <;> simp_all

end TokenOptions

end CairoForge
