import CairoForge.Binary64.Scaling

/-!
# Numerals

A JSON number as it is spelled, and what it stands for. A whole number stays an
integer as long as it fits 64 bits. Every other numeral stands for a binary floating
point number, which is found by rounding once or step by step.

## Main definitions

* `Numeral` — the parts of a JSON number.
* `Rounding` — the ways to a floating point number.
* `Quantity` — what a numeral stands for.
* `Numeral.nearest`, `Numeral.stepwise` — the number by either way.
* `Numeral.quantity?` — what a numeral stands for; `none` if it is too large for a
  number.
-/

namespace CairoForge

/-- The parts of a JSON number, digits in reading order. -/
structure Numeral where
  negative : Bool := false
  whole : List Char := []
  fraction : List Char := []
  /-- Whether the exponent is negative, and its digits. -/
  exponent? : Option (Bool × List Char) := none
  deriving DecidableEq

/-- The ways from a numeral to a floating point number. -/
inductive Rounding where
  /-- The exact value is rounded. -/
  | once
  /-- The digits that fit a word are rounded, and so is their product or quotient with
  a power of ten. -/
  | stepwise
  deriving DecidableEq

/-- What a numeral stands for. -/
inductive Quantity where
  | integer (n : Int)
  | float (x : Binary64)

/-- The number nearest to a quantity. -/
def Quantity.number : Quantity → Binary64
  | integer n => .ofRatio (n < 0) n.natAbs 1
  | float x => x

namespace Numeral

/-- The value of a digit. -/
def digitValue (c : Char) : Nat :=
  c.toNat - '0'.toNat

/-- The value of digits in reading order. -/
def natural (ds : List Char) : Nat :=
  ds.foldl (fun n c => 10 * n + digitValue c) 0

/-- One more than the largest unsigned word. -/
def wordLimit : Nat := 0x10000000000000000

/-- The magnitude of the least signed word. -/
def signedLimit : Nat := 0x8000000000000000

/-- The exponent that is spelled out, zero if there is none. -/
def exponent (n : Numeral) : Int :=
  match n.exponent? with
  | none => 0
  | some (negative, ds) => Binary64.signed negative (natural ds)

/-- The number nearest to a numeral. -/
def nearest (n : Numeral) : Binary64 :=
  .ofDecimal n.negative (natural (n.whole ++ n.fraction)) (n.exponent - n.fraction.length)

/-- Joins digits to a word until the next one does not fit; returns the word and the
number of digits that are left. -/
def fillWord (word : Nat) : List Char → Nat × Nat
  | [] => (word, 0)
  | c :: rest =>
    let next := 10 * word + digitValue c
    if next < wordLimit then fillWord next rest else (word, rest.length + 1)

/-- The number that the digits of a numeral lead to step by step. Digits that do not
fit a word are as good as zero. -/
def stepwise (n : Numeral) : Binary64 :=
  let (whole, wholeLeft) := fillWord 0 n.whole
  let (word, fractionLeft) := fillWord whole n.fraction
  let e := n.exponent + wholeLeft - (n.fraction.length - fractionLeft : Nat)
  let size := (Binary64.ofNat word).scaleByTen e
  if n.negative then size.negate else size

/-- The number that a numeral leads to. -/
def round (rounding : Rounding) (n : Numeral) : Binary64 :=
  match rounding with
  | .once => n.nearest
  | .stepwise => n.stepwise

/-- Is the numeral a whole number that fits 64 bits? A zero with a sign and what is
below the least signed word do not count. -/
def isInteger (n : Numeral) : Bool :=
  let size := natural n.whole
  n.fraction.isEmpty && n.exponent?.isNone && decide (size < wordLimit) &&
    (!n.negative || (size != 0 && decide (size ≤ signedLimit)))

/-- What a numeral stands for, unless it is too large for a number. -/
def quantity? (rounding : Rounding) (n : Numeral) : Option Quantity :=
  if n.isInteger then some (.integer (Binary64.signed n.negative (natural n.whole)))
  else
    let x := n.round rounding
    if x.isInfinite then none else some (.float x)

/-- The two ways may part in the last place: `112e146`. -/
example :
    let n : Numeral := { whole := ['1', '1', '2'], exponent? := some (false, ['1', '4', '6']) }
    n.nearest.bits = 0x5eac07773f879a2c ∧ n.stepwise.bits = 0x5eac07773f879a2b := by
  decide +kernel

end Numeral

end CairoForge
