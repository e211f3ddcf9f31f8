import CairoForge.Contract

/-!
# Metadata

Who to turn to with a security problem, and under which license the contract is
published.

## Main definitions

* `Metadata` — contact and license.
* `Contract.describe` — record them in a contract.
-/

namespace CairoForge

/-- Contact and license of a contract. An empty text says nothing. -/
structure Metadata where
  securityContact : String := ""
  license : String := "MIT"
  deriving DecidableEq

/-- The key of the tag that holds the contact. -/
def Metadata.contactKey : String := "@custom:security-contact"

/-- Record contact and license as far as they say something. -/
def Contract.describe (c : Contract) (info : Metadata) : Except Refusal Contract := do
  let c ←
    if info.securityContact.isEmpty then pure c
    else c.addTag Metadata.contactKey info.securityContact
  return if info.license.isEmpty then c else c.setLicense info.license

theorem Metadata.isValidKey_contactKey : Tag.isValidKey contactKey = true := by decide

/-- The tag of a contact is never refused, so neither is a description. -/
theorem Contract.describe_eq (c : Contract) (info : Metadata) :
    c.describe info =
      .ok { c with
        tags :=
          if info.securityContact.isEmpty then c.tags
          else c.tags ++ [⟨Metadata.contactKey, info.securityContact⟩]
        license := if info.license.isEmpty then c.license else info.license } := by
  unfold describe addTag setLicense
  rw [if_pos Metadata.isValidKey_contactKey]
  by_cases hcontact : info.securityContact.isEmpty <;>
    by_cases hlicense : info.license.isEmpty <;>
      simp only [hcontact, hlicense, if_true] <;> rfl

end CairoForge
