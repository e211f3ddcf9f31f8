import CairoForge.Json.Mismatch
import CairoForge.Json.Reading

/-!
# Decoding what was read

Values of the library from JSON as it was read. The first thing that is wrong in
reading order is the error, be it a fault of the text or a mismatch.

A record names its members and has a value to start from; each member that is
there changes that value, members of other names are passed over, and a member
given twice is refused.

## Main definitions

* `DecodeError` — a fault or a mismatch.
* `Reading.keep` — refuses what cannot be kept: too deep, too large, unusable.
* `Reading.string`, `Reading.boolean`, `Reading.byte`, `Reading.variant` — decode
  simple values.
* `Field`, `RecordForm` — the form of a record, and `RecordForm.decode`.
* `Transcript.decode` — decode a whole text.

Values are decoded as they are read or, where they had to be kept first, from what
was kept. `Origin` tells the two apart: they word the same mistakes differently.
-/

namespace CairoForge

/-- Why a text cannot be decoded. -/
inductive DecodeError where
  | fault (cause : Fault)
  /-- A mismatch that came up while the text was read. -/
  | mismatch (how : Mismatch)
  /-- A mismatch that came up in what was kept, after the text had been read. -/
  | lateMismatch (how : Mismatch)

namespace DecodeError

/-- The wording of an error, without its place in the text. -/
def message : DecodeError → String
  | fault cause => cause.message
  | mismatch how => how.message
  | lateMismatch how => how.message

/-- Is there a place in the text where the error came up? -/
def hasPlace : DecodeError → Bool
  | fault _ | mismatch _ => true
  | lateMismatch _ => false

/-- The wording of an error with the place behind it, if it came up at one. -/
def messageAt (place : String) (e : DecodeError) : String :=
  if e.hasPlace then e.message ++ place else e.message

/-- The same error, come up after the text had been read. -/
def afterReading : DecodeError → DecodeError
  | mismatch how => lateMismatch how
  | e => e

end DecodeError

/-- Where a value is decoded from. -/
inductive Origin where
  /-- From the text, while it is read. -/
  | text
  /-- From a value that was read and kept before. -/
  | kept
  deriving DecidableEq

/-- The deepest nesting of arrays and objects in a value that is kept. -/
def maxDepth : Nat := 127

/-- What ended the reading of an array or object is an error once everything before
it was decoded. -/
def endsWith (stop? : Option Fault) : Except DecodeError Unit :=
  match stop? with
  | none => .ok ()
  | some cause => .error (.fault cause)

/-- A name that is about to be used. -/
def MemberName.use (name : MemberName) : Except DecodeError String :=
  name.mapError .fault

namespace Reading

mutual

/-- Can the value be kept, inside `depth` open arrays and objects? -/
def keep (depth : Nat) : Reading → Except DecodeError Unit
  | .null | .bool _ | .text _ => .ok ()
  | .number (some _) => .ok ()
  | .number none => .error (.fault .numberOutOfRange)
  | .array items stop? =>
    if depth < maxDepth then do
      keepItems (depth + 1) items
      endsWith stop?
    else .error (.fault .tooDeep)
  | .object members stop? =>
    if depth < maxDepth then do
      keepMembers (depth + 1) members
      endsWith stop?
    else .error (.fault .tooDeep)
  | .fault cause => .error (.fault cause)

/-- Can all items be kept? -/
def keepItems (depth : Nat) : List Reading → Except DecodeError Unit
  | [] => .ok ()
  | item :: rest => do
    keep depth item
    keepItems depth rest

/-- Can all members be kept? -/
def keepMembers (depth : Nat) : List (MemberName × Reading) → Except DecodeError Unit
  | [] => .ok ()
  | (name, value) :: rest => do
    let _ ← name.use
    keep depth value
    keepMembers depth rest

end

/-- What a message says stands in the text. -/
def found : Reading → Except DecodeError Found
  | .null => .ok .null
  | .bool b => .ok (.bool b)
  | .number (some (.integer n)) => .ok (.integer n)
  | .number (some (.float x)) => .ok (.float x)
  | .number none => .error (.fault .numberOutOfRange)
  | .text s => .ok (.text s)
  | .array _ _ => .ok .sequence
  | .object _ _ => .ok .map
  | .fault cause => .error (.fault cause)

/-- The value is of another type than the one asked for. -/
def wrongType {α : Type} (wanted : Wanted) (r : Reading) : Except DecodeError α := do
  .error (.mismatch (.wrongType (← r.found) wanted))

/-- A text. -/
def string : Reading → Except DecodeError String
  | .text s => .ok s
  | r => r.wrongType .string

/-- A truth value. -/
def boolean : Reading → Except DecodeError Bool
  | .bool b => .ok b
  | r => r.wrongType .boolean

/-- An integer of eight bits, spelled as a whole number. -/
def byte (r : Reading) : Except DecodeError UInt8 := do
  match ← r.found with
  | .integer i =>
    if 0 ≤ i ∧ i < 256 then .ok (UInt8.ofNat i.toNat)
    else .error (.mismatch (.wrongValue (.integer i) .byte))
  | found => .error (.mismatch (.wrongType found .byte))

/-- One of several named values. -/
def variantNamed {α : Type} (variants : List (String × α)) (name : String) :
    Except DecodeError α :=
  match variants.find? (·.1 == name) with
  | some variant => .ok variant.2
  | none => .error (.mismatch (.unknownVariant name (variants.map (·.1))))

/-- The empty payload of a variant. A kept object without members passes too. -/
def unit (origin : Origin) : Reading → Except DecodeError Unit
  | .null => .ok ()
  | .object [] none =>
    if origin = .kept then .ok () else .error (.mismatch (.wrongType .map .unit))
  | r => r.wrongType .unit

/-- One of several named values: its name, or an object whose only member has that
name and an empty payload. -/
def variant {α : Type} (origin : Origin) (variants : List (String × α)) :
    Reading → Except DecodeError α
  | .text name => variantNamed variants name
  | .object ((name, payload) :: rest) stop? =>
    match origin, rest with
    | .kept, _ :: _ => .error (.mismatch (.wrongValue .map .singleMember))
    | _, _ => do
      let a ← variantNamed variants (← name.use)
      unit origin payload
      endsWith stop?
      if rest.isEmpty then .ok a else .error (.fault .expectedValue)
  | r =>
    match origin, r with
    | .kept, .object _ _ => .error (.mismatch (.wrongValue .map .singleMember))
    | .kept, r => r.wrongType .stringOrMap
    | .text, .fault cause => .error (.fault cause)
    | .text, .object _ (some cause) => .error (.fault cause)
    | .text, _ => .error (.fault .expectedValue)

end Reading

/-! ## Records -/

/-- A member of a record: its name, and what its value changes. -/
structure Field (α : Type) where
  name : String
  read : α → Reading → Except DecodeError α

/-- Members in reading order, each changing the value that the ones before it left.
`seen` holds the names that came up; a value of a name that is no field is handed
to `other`. -/
def readMembers {α : Type} (fields : List (Field α)) (other : Reading → Except DecodeError Unit)
    (seen : List String) (a : α) : List (MemberName × Reading) → Except DecodeError α
  | [] => .ok a
  | (name, r) :: rest => do
    let name ← name.use
    match fields.find? (·.name == name) with
    | none =>
      other r
      readMembers fields other seen a rest
    | some field =>
      if name ∈ seen then .error (.mismatch (.duplicateField name))
      else do
        let a ← field.read a r
        readMembers fields other (name :: seen) a rest

/-- Items in the order of the fields, as far as there are both. -/
def readItems {α : Type} (a : α) : List (Field α) → List Reading → Except DecodeError α
  | field :: fields, r :: rest => do
    let a ← field.read a r
    readItems a fields rest
  | _, _ => .ok a

/-- The form of a record: what it is called in messages, the value that a record
without members stands for, and its members. -/
structure RecordForm (α : Type) where
  name : String
  start : α
  fields : List (Field α)

/-- A record: an object of its members, or an array of them in order whose tail may
be missing. -/
def RecordForm.decode {α : Type} (form : RecordForm α) (origin : Origin) :
    Reading → Except DecodeError α
  | .object members stop? => do
    let a ← readMembers form.fields (fun _ => .ok ()) [] form.start members
    endsWith stop?
    return a
  | .array items stop? => do
    let a ← readItems form.start form.fields items
    if form.fields.length < items.length then
      match origin with
      | .text => .error (.fault .trailingCharacters)
      | .kept => .error (.mismatch (.wrongLength items.length form.fields.length))
    else
      endsWith stop?
      return a
  | r => r.wrongType (.record form.name)

/-- A whole text: its value, and nothing but blanks behind it. -/
def Transcript.decode {α : Type} (t : Transcript) (read : Reading → Except DecodeError α) :
    Except DecodeError α := do
  let a ← read t.root
  endsWith t.rest?
  return a

end CairoForge
