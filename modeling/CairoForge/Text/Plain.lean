/-!
# Plain text

What is left of a text where there is no terminal to obey its control sequences: a
control sequence disappears as a whole, and so does every other control character
that is no blank.

## Main definitions

* `ControlState` — where the reading of a control sequence stands.
* `plainText` — a text without control sequences.

A string to a device has a head, and only behind it does a terminator end the string.
A blank shows up even within the head of a control sequence. What follows it is shown
as well, up to the next control character; that one goes on with the sequence.
-/

namespace CairoForge

/-- Where the reading of a control sequence stands. -/
inductive ControlState where
  /-- Outside of control sequences. -/
  | ground
  /-- Behind the escape character. -/
  | escape
  /-- Behind an escape character and intermediate characters. -/
  | intermediate
  /-- Within the parameters of a control function. -/
  | parameters
  /-- Within a command to the system around the terminal, which a bell ends. -/
  | command
  /-- Behind the start of a string to a device. -/
  | deviceHead
  /-- Within the parameters in front of a string to a device. -/
  | deviceParameters
  /-- Within the intermediate characters in front of a string to a device. -/
  | deviceIntermediate
  /-- Within a string to the terminal or a device, which a terminator ends. -/
  | string
  deriving DecidableEq

namespace ControlState

/-- Does the character stand between these two, ends included? -/
def isBetween (c : Char) (first last : Nat) : Bool :=
  first ≤ c.toNat && c.toNat ≤ last

/-- Does one byte of the character end a string to the terminal? -/
def isTerminator (c : Char) : Bool :=
  (String.utf8EncodeChar c).contains 0x9c

/-- The state behind a character that is not shown. -/
def next (s : ControlState) (c : Char) : ControlState :=
  if c = '\x1b' then escape
  else if c = '\x18' ∨ c = '\x1a' then ground
  else
    match s with
    | ground => ground
    | escape =>
      if isBetween c 0x20 0x2f then intermediate
      else if c = '[' then parameters
      else if c = ']' then command
      else if c = 'P' then deviceHead
      else if c = 'X' ∨ c = '^' ∨ c = '_' then string
      else if isBetween c 0x30 0x7e then ground
      else escape
    | intermediate => if isBetween c 0x30 0x7e then ground else intermediate
    | parameters => if isBetween c 0x40 0x7e then ground else parameters
    | command => if c = '\x07' then ground else command
    | deviceHead =>
      if isBetween c 0x20 0x2f then deviceIntermediate
      else if isBetween c 0x30 0x3f then deviceParameters
      else if isBetween c 0x40 0x7e then string
      else deviceHead
    | deviceParameters =>
      if isBetween c 0x20 0x2f then deviceIntermediate
      else if isBetween c 0x3c 0x7e then string
      else deviceParameters
    | deviceIntermediate =>
      if isBetween c 0x30 0x7e then string else deviceIntermediate
    | string => if isTerminator c then ground else string

/-- A blank that moves the cursor. -/
def isMovingBlank (c : Char) : Bool :=
  c == '\t' || c == '\n' || c == '\x0c' || c == '\r'

/-- Is a character shown that comes up in this state? -/
def shows (s : ControlState) (c : Char) : Bool :=
  match s with
  | ground => isMovingBlank c || (0x20 ≤ c.toNat && c.toNat != 0x7f)
  | escape | intermediate | parameters => isMovingBlank c
  | command | deviceHead | deviceParameters | deviceIntermediate | string => false

end ControlState

/-- The characters that are shown of a text. While one is shown after the other, the
state of an unfinished control sequence waits; a character beyond ASCII ends it. -/
def shownChars (s : ControlState) (isShowing : Bool) : List Char → List Char
  | [] => []
  | c :: rest =>
    if (if isShowing then ControlState.ground else s).shows c then
      c :: shownChars (if c.toNat < 128 then s else .ground) true rest
    else shownChars (s.next c) false rest

/-- A text without control sequences. -/
def plainText (text : String) : String :=
  String.ofList (shownChars .ground false text.toList)

example : shownChars .ground false "\x1b[31mred".toList = "red".toList := by decide +kernel
example : shownChars .ground false "a\x07b\x7f\tc\x1bd".toList = "ab\tc".toList := by
  decide +kernel
example : shownChars .ground false "a\x1bPÜab".toList = "a".toList := by decide +kernel
example : shownChars .ground false "\x1bPqÜab".toList = "ab".toList := by decide +kernel

end CairoForge
