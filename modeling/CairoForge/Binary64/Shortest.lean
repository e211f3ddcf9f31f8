import CairoForge.Binary64

/-!
# Shortest decimals

The decimal of fewest digits that reads back to a given number, and the nearest
of those if there are several. The reals that round to a positive number
`m * 2 ^ q` form an interval around it, which holds its ends exactly when `m` is
even; the search runs over decimal grids from coarse to fine and stops at the
first grid that has a point in the interval.

## Main definitions

* `Decimal` — a natural times a power of ten.
* `Magnitude` — a positive number with the shape of its interval.
* `Magnitude.readsBack` — does a decimal lie in the interval?
* `Magnitude.shortest` — the search.
-/

namespace CairoForge

/-- The value `digits * 10 ^ exponent`. -/
structure Decimal where
  digits : Nat
  exponent : Int
  deriving DecidableEq

/-- Where the choice between two equally near decimals goes. -/
inductive Tie where
  | toEven
  | up
  deriving DecidableEq

/-- A positive number `m * 2 ^ q` and the shape of its rounding interval. -/
structure Magnitude where
  m : Nat
  q : Int
  /-- The gap to the number below is half of the gap to the number above. -/
  narrowBelow : Bool

namespace Magnitude

/-- Numerator of the value. -/
def num (x : Magnitude) : Nat := x.m <<< x.q.toNat

/-- Denominator of the value. -/
def den (x : Magnitude) : Nat := 1 <<< (-x.q).toNat

/-- The lower end of the interval in quarters of the last binary place. -/
def lowQuarters (x : Magnitude) : Nat :=
  if x.narrowBelow then 4 * x.m - 1 else 4 * x.m - 2

/-- The upper end of the interval in quarters of the last binary place. -/
def highQuarters (x : Magnitude) : Nat :=
  4 * x.m + 2

/-- Four times the decimal against some quarters of the last binary place, both
brought to one denominator. -/
def compareQuarters (x : Magnitude) (d : Decimal) (quarters : Nat) : Ordering :=
  compare (4 * d.digits * tenTo d.exponent.toNat * x.den)
    ((quarters <<< x.q.toNat) * tenTo (-d.exponent).toNat)

/-- Does the decimal round to this number? -/
def readsBack (x : Magnitude) (d : Decimal) : Bool :=
  let low := x.compareQuarters d x.lowQuarters
  let high := x.compareQuarters d x.highQuarters
  if x.m % 2 = 0 then low != .lt && high != .gt else low == .gt && high == .lt

/-- The number of decimal digits of a natural. -/
def decimalLength (n : Nat) : Nat :=
  (Nat.toDigits 10 n).length

/-- The least `k` with value below `10 ^ k`. -/
def scale (x : Magnitude) : Int :=
  if x.den ≤ x.num then decimalLength (x.num / x.den)
  else 1 - (decimalLength ((x.den - 1) / x.num) : Int)

/-- The number of whole steps of the grid `10 ^ e` in the value. -/
def stepsBelow (x : Magnitude) (e : Int) : Nat :=
  x.num * tenTo (-e).toNat / (x.den * tenTo e.toNat)

/-- Of two neighbouring grid points that both read back, the nearer one. -/
def nearer (tie : Tie) (x : Magnitude) (below : Nat) (e : Int) : Nat :=
  match compare (2 * x.num * tenTo (-e).toNat) ((2 * below + 1) * x.den * tenTo e.toNat) with
  | .lt => below
  | .gt => below + 1
  | .eq =>
    match tie with
    | .up => below + 1
    | .toEven => below + below % 2

/-- The point of the grid `10 ^ e` that stands for the number, if any reads back.
Only the two neighbours of the value on the grid can be the nearest. -/
def onGrid? (tie : Tie) (x : Magnitude) (e : Int) : Option Decimal :=
  let below := x.stepsBelow e
  match x.readsBack ⟨below, e⟩, x.readsBack ⟨below + 1, e⟩ with
  | true, true => some ⟨x.nearer tie below e, e⟩
  | true, false => some ⟨below, e⟩
  | false, true => some ⟨below + 1, e⟩
  | false, false => none

/-- The value itself as a decimal. -/
def exactly (x : Magnitude) : Decimal :=
  if 0 ≤ x.q then ⟨x.num, 0⟩ else ⟨x.m * Nat.pow 5 (-x.q).toNat, x.q⟩

/-- The decimal of fewest digits that reads back, the nearest of those. Seventeen
digits always suffice; should they not, the value itself is taken. -/
def shortest (tie : Tie) (x : Magnitude) : Decimal :=
  let grids : List Int := (List.range 17).map fun (n : Nat) => x.scale - 1 - n
  (grids.findSome? (x.onGrid? tie)).getD x.exactly

end Magnitude

/-- Moves zeros at the end of the digits into the exponent. -/
def Decimal.trim (d : Decimal) : Decimal :=
  if h : d.digits ≠ 0 ∧ d.digits % 10 = 0 then
    trim ⟨d.digits / 10, d.exponent + 1⟩
  else d
termination_by d.digits
decreasing_by omega

/-- The magnitude of `m * 2 ^ q` when these are the significand and exponent of a
nonzero number of the 64-bit format. -/
def Magnitude.ofBinary64 (m : Nat) (q : Int) : Magnitude :=
  ⟨m, q, m == Binary64.leadingBit && decide (-1074 < q)⟩

example : (Magnitude.ofBinary64 1 (-1074)).shortest .up = ⟨5, -324⟩ := by decide +kernel
example :
    (Magnitude.ofBinary64 Binary64.leadingBit (-77)).shortest .up = ⟨29802322387695313, -24⟩ := by
  decide +kernel
example :
    (Magnitude.ofBinary64 Binary64.leadingBit (-77)).shortest .toEven =
      ⟨29802322387695312, -24⟩ := by
  decide +kernel

end CairoForge
