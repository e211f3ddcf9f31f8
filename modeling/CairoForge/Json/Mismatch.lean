import CairoForge.Json
import CairoForge.Text.Quoted

/-!
# Mismatches

What can be wrong with a value that is JSON but not of the form that is asked for.

## Main definitions

* `Found` — what stands in the text.
* `Wanted` — what is asked for.
* `Mismatch` — how the two fail to agree.
* `Mismatch.message` — the wording.
-/

namespace CairoForge

/-- What stands in the text, as far as a message tells. -/
inductive Found where
  | null
  | bool (b : Bool)
  | integer (n : Int)
  | float (x : Binary64)
  | text (s : String)
  | sequence
  | map

/-- The wording of what was found. -/
def Found.message : Found → String
  | null => "null"
  | bool true => "boolean `true`"
  | bool false => "boolean `false`"
  | integer n => "integer `" ++ decimalText n ++ "`"
  | float x => "floating point `" ++ x.text Json.numberStyle ++ "`"
  | text s => "string " ++ quotedForMessage s
  | sequence => "sequence"
  | map => "map"

/-- What is asked for. -/
inductive Wanted where
  | string
  | boolean
  /-- An integer of eight bits. -/
  | byte
  | record (name : String)
  /-- A record whose kind is one of its members. -/
  | taggedRecord (name : String)
  | variantName
  | stringOrMap
  | unit
  | singleMember
  deriving DecidableEq

/-- The wording of what is asked for. -/
def Wanted.message : Wanted → String
  | string => "a string"
  | boolean => "a boolean"
  | byte => "u8"
  | record name => "struct " ++ name
  | taggedRecord name => "internally tagged enum " ++ name
  | variantName => "variant identifier"
  | stringOrMap => "string or map"
  | unit => "unit"
  | singleMember => "map with a single key"

/-- How a value fails to have the form that is asked for. -/
inductive Mismatch where
  | missingField (name : String)
  | duplicateField (name : String)
  | unknownVariant (given : String) (known : List String)
  | wrongType (found : Found) (wanted : Wanted)
  | wrongValue (found : Found) (wanted : Wanted)
  | wrongLength (actual expected : Nat)

namespace Mismatch

/-- Names in the words of a sentence. -/
def alternatives : List String → String
  | [] => "there are no variants"
  | [only] => "expected `" ++ only ++ "`"
  | [one, other] => "expected `" ++ one ++ "` or `" ++ other ++ "`"
  | many => "expected one of " ++ ", ".intercalate (many.map fun name => "`" ++ name ++ "`")

/-- A count of items. -/
def itemCount (n : Nat) : String :=
  decimalText n ++ (if n = 1 then " element" else " elements")

/-- The wording of a mismatch. -/
def message : Mismatch → String
  | missingField name => "missing field `" ++ name ++ "`"
  | duplicateField name => "duplicate field `" ++ name ++ "`"
  | unknownVariant given known =>
    "unknown variant `" ++ given ++ "`, " ++ alternatives known
  | wrongType found wanted =>
    "invalid type: " ++ found.message ++ ", expected " ++ wanted.message
  | wrongValue found wanted =>
    "invalid value: " ++ found.message ++ ", expected " ++ wanted.message
  | wrongLength actual expected =>
    "invalid length " ++ decimalText actual ++ ", expected " ++ itemCount expected ++
      " in sequence"

end Mismatch

end CairoForge
