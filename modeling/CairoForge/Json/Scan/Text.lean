import CairoForge.Json.Reading

/-!
# Reading JSON strings

A string is read one character at a time from behind its opening quote.

## Main definitions

* `TextScan` — a string as far as it is read.
* `TextScan.step` — reads one character: there is more to come, the string is closed,
  or the text is broken.
* `TextScan.name`, `TextScan.value` — the string as a name or as a value.

A string whose escapes stand for no character is read to its end all the same, since
a string that nobody wants to keep may hold them.
-/

namespace CairoForge

/-- Where the reading of a string stands. -/
inductive EscapeState where
  /-- Between characters. -/
  | plain
  /-- Behind a backslash. -/
  | backslash
  /-- Within the four bytes that spell a unit, given the high unit of a pair before it.
  There is no value if one of them is no digit. -/
  | hex (bytes : Nat) (value? : Option Nat) (high? : Option Nat)
  /-- Behind the high unit of a pair: a backslash must follow. -/
  | pairBackslash (high : Nat)
  /-- Behind that backslash: the letter of a unit must follow. -/
  | pairLetter (high : Nat)
  deriving DecidableEq

/-- A string as far as it is read, last character first. -/
structure TextScan where
  chars : List Char := []
  escape : EscapeState := .plain
  /-- A pair of units that stands for no character makes the string unusable, but
  its end is still found. -/
  flaw? : Option Fault := none
  deriving DecidableEq

/-- What a character does to the reading of a string. -/
inductive TextStep where
  | more (t : TextScan)
  | closed (t : TextScan)
  | broken (cause : Fault)

namespace TextScan

/-- One more character. -/
def push (t : TextScan) (c : Char) : TextScan :=
  { t with chars := c :: t.chars, escape := .plain }

/-- The string cannot be kept; the first flaw counts. -/
def flawed (t : TextScan) (flaw : Fault) : TextScan :=
  { t with escape := .plain, flaw? := some (t.flaw?.getD flaw) }

/-- A character between escapes. -/
def stepPlain (t : TextScan) (c : Char) : TextStep :=
  if c = '"' then .closed t
  else if c = '\\' then .more { t with escape := .backslash }
  else if c.toNat < 32 then .broken .controlCharacter
  else .more (t.push c)

/-- A character behind a backslash. -/
def stepBackslash (t : TextScan) (c : Char) : TextStep :=
  match c with
  | '"' => .more (t.push '"')
  | '\\' => .more (t.push '\\')
  | '/' => .more (t.push '/')
  | 'b' => .more (t.push '\x08')
  | 'f' => .more (t.push '\x0c')
  | 'n' => .more (t.push '\n')
  | 'r' => .more (t.push '\r')
  | 't' => .more (t.push '\t')
  | 'u' => .more { t with escape := .hex 0 (some 0) none }
  | _ => .broken .invalidEscape

/-- The value of a hexadecimal digit. -/
def hexValue? (c : Char) : Option Nat :=
  if c.isDigit then some (c.toNat - '0'.toNat)
  else if 'a' ≤ c ∧ c ≤ 'f' then some (c.toNat - 'a'.toNat + 10)
  else if 'A' ≤ c ∧ c ≤ 'F' then some (c.toNat - 'A'.toNat + 10)
  else none

/-- A unit that opens a pair. -/
def isHigh (unit : Nat) : Bool := 0xd800 ≤ unit && unit < 0xdc00

/-- A unit that closes a pair. -/
def isLow (unit : Nat) : Bool := 0xdc00 ≤ unit && unit < 0xe000

/-- A unit of four digits: a character of its own or with the high unit before it,
or the first half of a pair. -/
def unit (t : TextScan) (value : Nat) : Option Nat → TextScan
  | none =>
    if isHigh value then { t with escape := .pairBackslash value }
    else if isLow value then t.flawed .loneSurrogate
    else t.push (Char.ofNat value)
  | some high =>
    if isLow value then
      t.push (Char.ofNat (0x10000 + (high - 0xd800) * 0x400 + (value - 0xdc00)))
    else t.flawed .loneSurrogate

/-- Reads one character of a string. -/
def step (t : TextScan) (c : Char) : TextStep :=
  match t.escape with
  | .plain => t.stepPlain c
  | .backslash => t.stepBackslash c
  | .hex bytes value? high? =>
    let bytes := bytes + c.utf8Size
    let value? := value?.bind fun value => (hexValue? c).map (16 * value + ·)
    if bytes < 4 then .more { t with escape := .hex bytes value? high? }
    else
      match value? with
      | some value => .more (t.unit value high?)
      | none => .broken .invalidEscape
  | .pairBackslash high =>
    if c = '\\' then .more { t with escape := .pairLetter high }
    else (t.flawed .endOfHexEscape).stepPlain c
  | .pairLetter high =>
    if c = 'u' then .more { t with escape := .hex 0 (some 0) (some high) }
    else (t.flawed .endOfHexEscape).stepBackslash c

/-- The characters in reading order. -/
def content (t : TextScan) : String :=
  String.ofList t.chars.reverse

/-- The string as a name. -/
def name (t : TextScan) : MemberName :=
  match t.flaw? with
  | none => .ok t.content
  | some flaw => .error flaw

/-- The string as a value. -/
def value (t : TextScan) : Reading :=
  match t.flaw? with
  | none => .text t.content
  | some flaw => .fault flaw

end TextScan

end CairoForge
