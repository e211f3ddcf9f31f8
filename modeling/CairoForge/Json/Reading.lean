import CairoForge.Json.Fault
import CairoForge.Json.Numeral

/-!
# What is read of a JSON text

A JSON text is read into a tree that holds everything up to the first fault. A fault
inside a value takes the place of the value; every array and object that is open at
that point ends there and says so. Whoever walks the tree in order therefore meets
what is wrong with the text where a reader of the text would.

## Main definitions

* `MemberName` — the name of a member, unless it cannot be used.
* `Reading` — the tree.
* `Transcript` — the tree of a whole text, and whether anything follows its value.

A number may be too large, and nesting is not limited: range and depth concern only
who wants to keep a value.
-/

namespace CairoForge

/-- The name of a member. A name whose escapes stand for no character can be passed
over but not used. -/
abbrev MemberName := Except Fault String

/-- What was read of a JSON value. -/
inductive Reading where
  | null
  | bool (b : Bool)
  /-- A number, if it is not too large for one. -/
  | number (quantity? : Option Quantity)
  | text (s : String)
  /-- The items read, and what ended the reading before the closing bracket. -/
  | array (items : List Reading) (stop? : Option Fault)
  /-- The members read, and what ended the reading before the closing brace. -/
  | object (members : List (MemberName × Reading)) (stop? : Option Fault)
  /-- A value that could not be read. -/
  | fault (cause : Fault)

/-- What was read of a text: its value, and what follows the value if it is more
than blanks. -/
structure Transcript where
  root : Reading
  rest? : Option Fault

end CairoForge
