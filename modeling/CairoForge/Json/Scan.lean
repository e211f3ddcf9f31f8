import CairoForge.Json.Reading
import CairoForge.Json.Scan.Number
import CairoForge.Json.Scan.Text

/-!
# Reading JSON text

A JSON text is read one character at a time. What is expected next depends on the
innermost open array or object only, so the open ones form a stack; a value that is
complete joins the top of the stack.

## Main definitions

* `Frame` — an open array or object.
* `Mode` — what is expected next.
* `Scan` — the state of reading: a mode and a stack of frames.
* `Scan.step` — reads one character.
* `Scan.finish` — what was read when the text ends.
* `Transcript.ofText` — what is read of a text.
-/

namespace CairoForge

/-- An open container, what it holds last first. -/
inductive Frame where
  | array (items : List Reading)
  /-- An object, with the name of the member whose value is being read. -/
  | object (members : List (MemberName × Reading)) (name? : Option MemberName)

/-- What is expected next. -/
inductive Mode where
  /-- A value. -/
  | value
  /-- The first item of an array, or its end. -/
  | firstItem
  /-- The next item of an array. -/
  | nextItem
  /-- The first name of an object, or its end. -/
  | firstName
  /-- The next name of an object. -/
  | nextName
  /-- The colon behind a name. -/
  | colon
  /-- A comma or the end of the container. -/
  | separator
  /-- More of the string that is a name. -/
  | name (t : TextScan)
  /-- More of the string that is a value. -/
  | text (t : TextScan)
  /-- More of a number. -/
  | number (phase : NumberPhase) (n : Numeral)
  /-- More of a word: the next letter, those behind it, and the value it stands for. -/
  | word (next : Char) (rest : List Char) (r : Reading)
  /-- Nothing but blanks behind the value of the text. -/
  | ended (t : Transcript)

/-- The state of reading. -/
structure Scan where
  mode : Mode
  stack : List Frame

namespace Scan

/-- Before the first character. -/
def start : Scan := ⟨.value, []⟩

/-- The blanks of JSON. -/
def isBlank (c : Char) : Bool :=
  c == ' ' || c == '\n' || c == '\t' || c == '\r'

/-- A complete value becomes part of the innermost container. -/
def complete (r : Reading) : List Frame → Scan
  | [] => ⟨.ended ⟨r, none⟩, []⟩
  | .array items :: outer => ⟨.separator, .array (r :: items) :: outer⟩
  | .object members name? :: outer =>
    ⟨.separator, .object ((name?.getD (.ok ""), r) :: members) none :: outer⟩

/-- The tree when reading ends inside `r`: every open container holds what it has,
with `r` last, and says what ended it. -/
def abandon (cause : Fault) (r : Reading) : List Frame → Reading
  | [] => r
  | .array items :: outer => abandon cause (.array (r :: items).reverse (some cause)) outer
  | .object members name? :: outer =>
    abandon cause (.object ((name?.getD (.ok ""), r) :: members).reverse (some cause)) outer

/-- What was read when a fault is met inside a value. -/
def faultInValue (cause : Fault) (stack : List Frame) : Transcript :=
  ⟨abandon cause (.fault cause) stack, some cause⟩

/-- What was read when a fault is met between the values of the innermost container. -/
def faultBetween (cause : Fault) : List Frame → Transcript
  | [] => faultInValue cause []
  | .array items :: outer =>
    ⟨abandon cause (.array items.reverse (some cause)) outer, some cause⟩
  | .object members _ :: outer =>
    ⟨abandon cause (.object members.reverse (some cause)) outer, some cause⟩

/-- Nothing more is read. -/
def halt (t : Transcript) : Scan :=
  ⟨.ended t, []⟩

/-- The first character of a value. -/
def stepValue (stack : List Frame) (c : Char) : Scan :=
  match c with
  | 'n' => ⟨.word 'u' ['l', 'l'] .null, stack⟩
  | 't' => ⟨.word 'r' ['u', 'e'] (.bool true), stack⟩
  | 'f' => ⟨.word 'a' ['l', 's', 'e'] (.bool false), stack⟩
  | '-' => ⟨.number .sign { negative := true }, stack⟩
  | '"' => ⟨.text {}, stack⟩
  | '[' => ⟨.firstItem, .array [] :: stack⟩
  | '\x7b' => ⟨.firstName, .object [] none :: stack⟩
  | _ =>
    match Numeral.step .sign {} c with
    | .more phase n => ⟨.number phase n, stack⟩
    | _ => halt (faultInValue .expectedValue stack)

/-- A character behind an item or member. -/
def stepSeparator (stack : List Frame) (c : Char) : Scan :=
  match stack with
  | .array items :: outer =>
    if c = ',' then ⟨.nextItem, stack⟩
    else if c = ']' then complete (.array items.reverse none) outer
    else halt (faultBetween .expectedListEnd stack)
  | .object members _ :: outer =>
    if c = ',' then ⟨.nextName, stack⟩
    else if c = '\x7d' then complete (.object members.reverse none) outer
    else halt (faultBetween .expectedObjectEnd stack)
  | [] => halt (faultInValue .trailingCharacters [])

/-- A character that starts a name, or ends the object at once. -/
def stepName (stack : List Frame) (c : Char) : Scan :=
  if c = '"' then ⟨.name {}, stack⟩ else halt (faultBetween .keyMustBeString stack)

/-- A string that is a name. -/
def closeName (name : MemberName) : List Frame → Scan
  | .object members _ :: outer => ⟨.colon, .object members (some name) :: outer⟩
  | stack => halt (faultBetween .keyMustBeString stack)

/-- Blanks are passed over where a value, a name or punctuation may follow. -/
def skipsBlank : Mode → Bool
  | .value | .firstItem | .nextItem | .firstName | .nextName | .colon | .separator => true
  | .ended ⟨_, none⟩ => true
  | _ => false

/-- A character behind a complete value: it belongs to the innermost container, or
follows the value of the text. -/
def stepBehind (s : Scan) (c : Char) : Scan :=
  match s.mode with
  | .separator => if isBlank c then s else stepSeparator s.stack c
  | .ended ⟨r, none⟩ =>
    if isBlank c then s else ⟨.ended ⟨r, some .trailingCharacters⟩, []⟩
  | _ => s

/-- Reads one character. Once a fault is met the rest of the text is not looked at. -/
def step (rounding : Rounding) (s : Scan) (c : Char) : Scan :=
  if skipsBlank s.mode && isBlank c then s
  else
    match s.mode with
    | .value => stepValue s.stack c
    | .firstItem =>
      if c = ']' then stepSeparator s.stack c else stepValue s.stack c
    | .nextItem =>
      if c = ']' then halt (faultBetween .trailingComma s.stack) else stepValue s.stack c
    | .firstName =>
      if c = '\x7d' then stepSeparator s.stack c else stepName s.stack c
    | .nextName =>
      if c = '\x7d' then halt (faultBetween .trailingComma s.stack) else stepName s.stack c
    | .colon =>
      if c = ':' then ⟨.value, s.stack⟩ else halt (faultInValue .expectedColon s.stack)
    | .name t =>
      match t.step c with
      | .more t => ⟨.name t, s.stack⟩
      | .closed t => closeName t.name s.stack
      | .broken cause => halt (faultBetween cause s.stack)
    | .text t =>
      match t.step c with
      | .more t => ⟨.text t, s.stack⟩
      | .closed t => complete t.value s.stack
      | .broken cause => halt (faultInValue cause s.stack)
    | .number phase n =>
      match n.step phase c with
      | .more phase n => ⟨.number phase n, s.stack⟩
      | .ended => (complete (.number (n.quantity? rounding)) s.stack).stepBehind c
      | .broken cause => halt (faultInValue cause s.stack)
    | .word next rest r =>
      if c = next then
        match rest with
        | [] => complete r s.stack
        | next :: rest => ⟨.word next rest r, s.stack⟩
      else halt (faultInValue .expectedWord s.stack)
    | .separator => s.stepBehind c
    | .ended _ => s.stepBehind c

/-- The fault of a text that ends inside the innermost container. -/
def endFault : List Frame → Fault
  | .array _ :: _ => .endInList
  | .object _ _ :: _ => .endInObject
  | [] => .endInValue

/-- What was read once there are no more characters. -/
def finish (rounding : Rounding) (s : Scan) : Transcript :=
  match s.mode with
  | .ended t => t
  | .value | .nextItem | .word _ _ _ => faultInValue .endInValue s.stack
  | .nextName => faultBetween .endInValue s.stack
  | .firstItem | .firstName | .separator => faultBetween (endFault s.stack) s.stack
  | .colon => faultInValue .endInObject s.stack
  | .name _ => faultBetween .endInString s.stack
  | .text _ => faultInValue .endInString s.stack
  | .number phase n =>
    if Numeral.mayEnd phase then
      match complete (.number (n.quantity? rounding)) s.stack with
      | ⟨.ended t, _⟩ => t
      | ⟨_, stack⟩ => faultBetween (endFault stack) stack
    else faultInValue .endInValue s.stack

end Scan

/-- What is read of a text whose numbers are rounded as told. -/
def Transcript.ofText (rounding : Rounding) (text : String) : Transcript :=
  (text.toList.foldl (Scan.step rounding) .start).finish rounding

end CairoForge
