import CairoForge.Contract.Json
import CairoForge.Json.Scan
import CairoForge.Source.Document
import CairoForge.Token.Assembly
import CairoForge.Token.Json

/-!
# Requests

A request says of what kind a contract is to be, and gives the options of that
kind. Its JSON is the object of the options with the kind as one more member.

## Main definitions

* `Kind` — the kinds of contract.
* `Request` — a kind with its options.
* `Request.build`, `Request.source` — the contract and its source.
* `Request.json`, `Request.decode` — requests as JSON.
-/

namespace CairoForge

/-- The kinds of contract. -/
inductive Kind where
  | erc20
  deriving DecidableEq

namespace Kind

/-- All kinds. -/
def all : List Kind := [erc20]

/-- The word for a kind. -/
def name : Kind → String
  | erc20 => "ERC20"

/-- The kind that a text names in any case of letters, or the usual kind. -/
def ofText (text : String) : Kind :=
  (all.find? fun kind => kind.name.map Char.toLower == text.map Char.toLower).getD erc20

/-- The kinds by their names. -/
def variants : List (String × Kind) :=
  all.map fun kind => (kind.name, kind)

/-- A kind is its name. -/
def json (kind : Kind) : Json :=
  .text kind.name

/-- A kind from its name. -/
def decode (origin : Origin) : Reading → Except DecodeError Kind :=
  Reading.variant origin variants

/-- A kind where only a name is taken. -/
def decodeName : Reading → Except DecodeError Kind
  | .text name => Reading.variantNamed variants name
  | r => r.wrongType .variantName

end Kind

/-- A kind of contract with its options. -/
inductive Request where
  | token (options : TokenOptions)
  deriving DecidableEq

namespace Request

/-- The kind of a request. -/
def kind : Request → Kind
  | token _ => .erc20

/-- The contract that is asked for. -/
def build : Request → Except Refusal Contract
  | token options => options.build

/-- The source of the contract that is asked for. -/
def source (request : Request) : Except Refusal String := do
  (← request.build).source {}

/-- The member that holds the kind. -/
def kindKey : String := "kind"

/-- A request as JSON, its kind first. -/
def json : Request → Json
  | token options => .object ((kindKey, Kind.erc20.json) :: options.members)

/-- The members of a request in reading order: its kind, which is decoded as soon as
it comes up, and all others, which are kept. -/
def splitKind (kind? : Option Kind) :
    List (MemberName × Reading) →
      Except DecodeError (Option Kind × List (MemberName × Reading))
  | [] => .ok (kind?, [])
  | (name, r) :: rest => do
    if (← name.use) = kindKey then
      match kind? with
      | some _ => .error (.mismatch (.duplicateField kindKey))
      | none =>
        let kind ← Kind.decodeName r
        splitKind (some kind) rest
    else
      r.keep 1
      let (kind?, others) ← splitKind kind? rest
      return (kind?, (name, r) :: others)

/-- Options of a kind from kept members. -/
def ofMembers (members : List (MemberName × Reading)) : Kind → Except DecodeError Request
  | .erc20 => ((TokenOptions.ofMembers members none).map .token).mapError .afterReading

/-- A request: an object with its kind among the members. An array starts with the
kind, and then cannot hold the options. -/
def decode : Reading → Except DecodeError Request
  | .object members stop? => do
    let (kind?, others) ← splitKind none members
    endsWith stop?
    match kind? with
    | some kind => ofMembers others kind
    | none => .error (.mismatch (.missingField kindKey))
  | .array [] stop? => do
    endsWith stop?
    .error (.mismatch (.missingField kindKey))
  | .array (first :: rest) stop? => do
    let _ ← Kind.decodeName first
    Reading.keepItems 1 rest
    endsWith stop?
    .error (.lateMismatch (.wrongType .sequence (.record TokenOptions.formName)))
  | r => r.wrongType (.taggedRecord "GenericOptions")

/-- The request in a text whose numbers are rounded as told. -/
def ofText (rounding : Rounding) (text : String) : Except DecodeError Request :=
  (Transcript.ofText rounding text).decode decode

end Request

end CairoForge
