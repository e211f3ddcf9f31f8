import CairoForge.Binary64.Text

/-!
# JSON values and their text

JSON values as they are written: the members of an object keep their order, and a
value has exactly one text in each spacing.

## Main definitions

* `Json` — a value to be written.
* `Json.quoted` — a text in double quotes with its escapes.
* `Json.write` — the characters of a value in a spacing.
* `Json.compact`, `Json.pretty` — the text without any space, and spread over lines.
-/

namespace CairoForge

/-- A JSON value to be written. -/
inductive Json where
  | null
  | bool (b : Bool)
  | integer (n : Int)
  | number (x : Binary64)
  | text (s : String)
  | array (items : List Json)
  | object (members : List (String × Json))
  deriving Inhabited

namespace Json

/-- Numbers keep a point, and those of sixteen places or more on either side take
an exponent. What is no finite number is written as no value. -/
def numberStyle : NumberStyle where
  isPlain lead := decide (-5 ≤ lead) && decide (lead < 16)
  keepPoint := true
  tie := .toEven
  nan := "null"
  infinite _ := "null"

/-- The hexadecimal digits of a control character. -/
def hexByte (n : Nat) : List Char :=
  [Nat.digitChar (n / 16 % 16), Nat.digitChar (n % 16)]

/-- A character between double quotes. Only quotes, backslashes and control
characters are escaped. -/
def escape (c : Char) : List Char :=
  if c = '"' then ['\\', '"']
  else if c = '\\' then ['\\', '\\']
  else if c = '\x08' then ['\\', 'b']
  else if c = '\x0c' then ['\\', 'f']
  else if c = '\n' then ['\\', 'n']
  else if c = '\r' then ['\\', 'r']
  else if c = '\t' then ['\\', 't']
  else if c.toNat < 32 then ['\\', 'u', '0', '0'] ++ hexByte c.toNat
  else [c]

/-- A text in double quotes. -/
def quoted (s : String) : List Char :=
  '"' :: s.toList.flatMap escape ++ ['"']

/-- What stands between the parts of arrays and objects. -/
structure Spacing where
  /-- What stands before an item, given its depth, and before a closing bracket. -/
  lineBreak : Nat → List Char
  /-- What stands between the colon and the value of a member. -/
  afterColon : List Char

/-- No spaces at all. -/
def Spacing.none : Spacing where
  lineBreak _ := []
  afterColon := []

/-- One line for each item, indented by two spaces for each level. -/
def Spacing.lines : Spacing where
  lineBreak depth := '\n' :: List.replicate (2 * depth) ' '
  afterColon := [' ']

/-- A name and the colon behind it. -/
def memberName (spacing : Spacing) (name : String) : List Char :=
  quoted name ++ ':' :: spacing.afterColon

mutual

/-- The characters of a value that stands at a depth. -/
def write (spacing : Spacing) (depth : Nat) : Json → List Char
  | .null => "null".toList
  | .bool true => "true".toList
  | .bool false => "false".toList
  | .integer n => (decimalText n).toList
  | .number x => (x.text numberStyle).toList
  | .text s => quoted s
  | .array [] => ['[', ']']
  | .array (first :: rest) =>
    '[' :: spacing.lineBreak (depth + 1) ++ write spacing (depth + 1) first ++
      writeItems spacing (depth + 1) rest ++ spacing.lineBreak depth ++ [']']
  | .object [] => ['\x7b', '\x7d']
  | .object ((name, value) :: rest) =>
    '\x7b' :: spacing.lineBreak (depth + 1) ++ memberName spacing name ++
      write spacing (depth + 1) value ++ writeMembers spacing (depth + 1) rest ++
      spacing.lineBreak depth ++ ['\x7d']

/-- The items behind the first one. -/
def writeItems (spacing : Spacing) (depth : Nat) : List Json → List Char
  | [] => []
  | item :: rest =>
    ',' :: spacing.lineBreak depth ++ write spacing depth item ++ writeItems spacing depth rest

/-- The members behind the first one. -/
def writeMembers (spacing : Spacing) (depth : Nat) : List (String × Json) → List Char
  | [] => []
  | (name, value) :: rest =>
    ',' :: spacing.lineBreak depth ++ memberName spacing name ++ write spacing depth value ++
      writeMembers spacing depth rest

end

/-- The text of a value without any space. -/
def compact (j : Json) : String :=
  String.ofList (write .none 0 j)

/-- The text of a value spread over lines. -/
def pretty (j : Json) : String :=
  String.ofList (write .lines 0 j)

/-- An array of texts. -/
def texts (items : List String) : Json :=
  .array (items.map .text)

/-- A value, or null for none. -/
def orNull {α : Type} (f : α → Json) : Option α → Json
  | some a => f a
  | none => .null

end Json

end CairoForge
