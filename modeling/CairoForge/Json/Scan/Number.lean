import CairoForge.Json.Fault
import CairoForge.Json.Numeral

/-!
# Reading JSON numbers

A number is read one character at a time, from behind its sign if it has one. It has
no closing character: it ends before the first character that cannot belong to it.

## Main definitions

* `NumberPhase` — which part of a number is being read.
* `Numeral.step` — reads one character: there is more to come, the number has ended
  before the character, or the text is broken.
* `Numeral.mayEnd` — may the text end here?
-/

namespace CairoForge

/-- Where the reading of a number stands. -/
inductive NumberPhase where
  /-- Behind the sign. -/
  | sign
  /-- Behind a leading zero. -/
  | zero
  /-- Within the whole part. -/
  | whole
  /-- Behind the point. -/
  | point
  /-- Within the fraction. -/
  | fraction
  /-- Behind the letter of the exponent. -/
  | mark
  /-- Behind the sign of the exponent. -/
  | exponentSign
  /-- Within the exponent. -/
  | exponent
  deriving DecidableEq

/-- What a character does to the reading of a number. -/
inductive NumberStep where
  | more (phase : NumberPhase) (n : Numeral)
  | ended
  | broken (cause : Fault)

namespace Numeral

/-- One more digit of the whole part. -/
def pushWhole (n : Numeral) (c : Char) : Numeral :=
  { n with whole := n.whole ++ [c] }

/-- One more digit of the fraction. -/
def pushFraction (n : Numeral) (c : Char) : Numeral :=
  { n with fraction := n.fraction ++ [c] }

/-- One more digit of the exponent. -/
def pushExponent (n : Numeral) (c : Char) : Numeral :=
  { n with exponent? := n.exponent?.map fun (negative, ds) => (negative, ds ++ [c]) }

/-- A number that may end here or go on with a point or an exponent. -/
def stepOn (n : Numeral) (c : Char) : NumberStep :=
  if c = '.' then .more .point n
  else if c = 'e' ∨ c = 'E' then .more .mark { n with exponent? := some (false, []) }
  else .ended

/-- Reads one character of a number. -/
def step (phase : NumberPhase) (n : Numeral) (c : Char) : NumberStep :=
  match phase with
  | .sign =>
    if c = '0' then .more .zero (n.pushWhole c)
    else if c.isDigit then .more .whole (n.pushWhole c)
    else .broken .invalidNumber
  | .zero => if c.isDigit then .broken .invalidNumber else n.stepOn c
  | .whole => if c.isDigit then .more .whole (n.pushWhole c) else n.stepOn c
  | .point =>
    if c.isDigit then .more .fraction (n.pushFraction c) else .broken .invalidNumber
  | .fraction =>
    if c.isDigit then .more .fraction (n.pushFraction c)
    else if c = '.' then .ended
    else n.stepOn c
  | .mark =>
    if c = '+' then .more .exponentSign n
    else if c = '-' then .more .exponentSign { n with exponent? := some (true, []) }
    else if c.isDigit then .more .exponent (n.pushExponent c)
    else .broken .invalidNumber
  | .exponentSign =>
    if c.isDigit then .more .exponent (n.pushExponent c) else .broken .invalidNumber
  | .exponent => if c.isDigit then .more .exponent (n.pushExponent c) else .ended

/-- Is a number complete at this point? -/
def mayEnd : NumberPhase → Bool
  | .zero | .whole | .fraction | .exponent => true
  | .sign | .point | .mark | .exponentSign => false

end Numeral

end CairoForge
