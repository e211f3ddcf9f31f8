import CairoForge.Binary64.Text
import CairoForge.FieldMessages

/-!
# Refusals

Every reason for which building or printing a contract is refused, and the one
place where its wording is fixed.

## Main definitions

* `Refusal` — the reasons.
* `Refusal.message` — their wording.
-/

namespace CairoForge

/-- Why an operation on a contract, or its printing, is refused. -/
inductive Refusal where
  /-- The options contradict each other or hold unusable text. -/
  | options (problems : FieldMessages)
  /-- The body of the function was set as a whole before. -/
  | functionFinalized (function : String)
  /-- The function already collected code, so its body cannot be set as a whole. -/
  | functionHasCode (function : String)
  /-- The number is no integer of the exact range. -/
  | unrepresentableNumber (number : Binary64)
  /-- The key of a tag does not follow the grammar of tag keys. -/
  | invalidTagKey (key : String)

namespace Refusal

/-- Numbers in messages are written out in full, without a point where none is
needed. -/
def numberStyle : NumberStyle where
  isPlain _ := true
  keepPoint := false
  tie := .up
  nan := "NaN"
  infinite negative := if negative then "-inf" else "inf"

/-- The wording of a refusal. -/
def message : Refusal → String
  | options problems => "Invalid options: " ++ problems.text
  | functionFinalized function => "Function " ++ function ++ " is already finalized"
  | functionHasCode function => "Function " ++ function ++ " has additional code"
  | unrepresentableNumber number =>
    "Number not representable (" ++ number.text numberStyle ++ ")"
  | invalidTagKey key => "Invalid natspec key: " ++ key

end Refusal

end CairoForge
