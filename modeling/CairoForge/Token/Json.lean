import CairoForge.Json.Decoding
import CairoForge.Token.Options

/-!
# Options as JSON

The options of a token as JSON, and read back from JSON. Reading starts from the
defaults: a member that is there replaces one default, and members of other names
are passed over.

## Main definitions

* `TokenOptions.json`, `TokenOptions.decode` — options of a token.
* `SharedOptions.json`, `SharedOptions.decode` — the shared part of them.
* `Metadata.json`, `Metadata.decode`, `AccessMode.json`, `AccessMode.decode`.
-/

namespace CairoForge

namespace AccessMode

/-- A mode is its name. -/
def json (mode : AccessMode) : Json :=
  .text mode.name

/-- A mode from its name. -/
def decode (origin : Origin) : Reading → Except DecodeError AccessMode :=
  Reading.variant origin (all.map fun mode => (mode.name, mode))

end AccessMode

namespace Metadata

/-- Contact and license. -/
def json (info : Metadata) : Json :=
  .object [("securityContact", .text info.securityContact), ("license", .text info.license)]

/-- The form of contact and license. -/
def form : RecordForm Metadata where
  name := "Info"
  start := {}
  fields := [
    ⟨"securityContact", fun info r => return { info with securityContact := ← r.string }⟩,
    ⟨"license", fun info r => return { info with license := ← r.string }⟩]

/-- Contact and license. -/
def decode (origin : Origin) : Reading → Except DecodeError Metadata :=
  form.decode origin

end Metadata

namespace SharedOptions

/-- The members of the shared options. -/
def members (o : SharedOptions) : List (String × Json) :=
  [("access", o.access.json), ("upgradeable", .bool o.upgradeable), ("info", o.info.json)]

/-- The shared options. -/
def json (o : SharedOptions) : Json :=
  .object o.members

/-- The form of the shared options. -/
def form (origin : Origin) : RecordForm SharedOptions where
  name := "CommonOptions"
  start := {}
  fields := [
    ⟨"access", fun o r => return { o with access := ← AccessMode.decode origin r }⟩,
    ⟨"upgradeable", fun o r => return { o with upgradeable := ← r.boolean }⟩,
    ⟨"info", fun o r => return { o with info := ← Metadata.decode origin r }⟩]

/-- The shared options. -/
def decode (origin : Origin) : Reading → Except DecodeError SharedOptions :=
  (form origin).decode origin

end SharedOptions

namespace TokenOptions

/-- The members of the options of a token, the shared ones last. -/
def members (o : TokenOptions) : List (String × Json) :=
  [("name", .text o.name),
    ("symbol", .text o.symbol),
    ("decimals", .integer o.decimals.toNat),
    ("burnable", .bool o.burnable),
    ("snapshots", .bool o.snapshots),
    ("pausable", .bool o.pausable),
    ("mintable", .bool o.mintable),
    ("permit", .bool o.permit),
    ("votes", .bool o.votes),
    ("flashmint", .bool o.flashmint)] ++ o.shared.members

/-- The options of a token. -/
def json (o : TokenOptions) : Json :=
  .object o.members

/-- The members that only a token has. -/
def fields : List (Field TokenOptions) :=
  [⟨"name", fun o r => return { o with name := ← r.string }⟩,
    ⟨"symbol", fun o r => return { o with symbol := ← r.string }⟩,
    ⟨"decimals", fun o r => return { o with decimals := ← r.byte }⟩,
    ⟨"burnable", fun o r => return { o with burnable := ← r.boolean }⟩,
    ⟨"snapshots", fun o r => return { o with snapshots := ← r.boolean }⟩,
    ⟨"pausable", fun o r => return { o with pausable := ← r.boolean }⟩,
    ⟨"mintable", fun o r => return { o with mintable := ← r.boolean }⟩,
    ⟨"permit", fun o r => return { o with permit := ← r.boolean }⟩,
    ⟨"votes", fun o r => return { o with votes := ← r.boolean }⟩,
    ⟨"flashmint", fun o r => return { o with flashmint := ← r.boolean }⟩]

/-- What the members of a token are called in messages. -/
def formName : String := "Erc20Options"

/-- The options of a token from the members of an object. The members of the token
are decoded first and all others kept; of these the shared ones are decoded after
the object has ended. -/
def ofMembers (members : List (MemberName × Reading)) (stop? : Option Fault) :
    Except DecodeError TokenOptions := do
  let o ← readMembers fields (Reading.keep 1) [] {} members
  endsWith stop?
  let shared ← readMembers (SharedOptions.form .kept).fields (fun _ => .ok ()) [] {} members
  return { o with shared }

/-- The options of a token. -/
def decode : Reading → Except DecodeError TokenOptions
  | .object members stop? => ofMembers members stop?
  | r => r.wrongType (.record formName)

end TokenOptions

end CairoForge
