import CairoForge.Text.Visible

/-!
# Text in double quotes

A text as it is shown in a message: in double quotes, on one line, with a numbered
escape for every character that cannot be seen.

## Main definitions

* `quotedForMessage` — the text in double quotes.
-/

namespace CairoForge

/-- A character by its number. -/
def numberedEscape (c : Char) : List Char :=
  "\\u\x7b".toList ++ Nat.toDigits 16 c.toNat ++ ['\x7d']

/-- A character between the quotes. -/
def messageEscape (c : Char) : List Char :=
  match c with
  | '"' => ['\\', '"']
  | '\\' => ['\\', '\\']
  | '\n' => ['\\', 'n']
  | '\r' => ['\\', 'r']
  | '\t' => ['\\', 't']
  | '\x00' => ['\\', '0']
  | c => if isVisible c then [c] else numberedEscape c

/-- A text in double quotes. -/
def quotedForMessage (s : String) : String :=
  "\"" ++ String.ofList (s.toList.flatMap messageEscape) ++ "\""

end CairoForge
