import CairoForge.Binary64

/-!
# Rounding to binary floating point

The number nearest to a quotient of naturals, ties to the even significand. All
arithmetic is exact, so one rounding happens and only at the end.

## Main definitions

* `Binary64.roundHalfEven` — the natural nearest to a quotient, ties to even.
* `Binary64.ofRatio` — the number nearest to a quotient.
* `Binary64.ofNat`, `Binary64.ofDecimal` — the number nearest to a natural, or to a
  natural times a power of ten.
-/

namespace CairoForge

namespace Binary64

/-- The natural nearest to `num / den`, an exact half going to the even one. -/
def roundHalfEven (num den : Nat) : Nat :=
  let quotient := num / den
  let twice := 2 * (num % den)
  if twice < den then quotient
  else if den < twice then quotient + 1
  else quotient + quotient % 2

/-- `num / den` divided by `2 ^ q`, again as numerator and denominator. -/
def descale (num den : Nat) (q : Int) : Nat × Nat :=
  (num <<< (-q).toNat, den <<< q.toNat)

/-- The exponent `q` for which `num / den / 2 ^ q` has fifty-three bits before the
point, but not below the least exponent of the format. -/
def scaleOf (num den : Nat) : Int :=
  let estimate := (Nat.log2 num : Int) - Nat.log2 den - 53
  let (n, d) := descale num den estimate
  let exact := if d <<< 53 ≤ n then estimate + 1 else estimate
  max exact (-1074)

/-- The word of sign and magnitude. -/
def pack (negative : Bool) (magnitude : Nat) : Binary64 :=
  ⟨UInt64.ofNat ((if negative then signBit else 0) + magnitude)⟩

/-- The number nearest to `num / den`, with the given sign. Exponent and fraction
fields follow one another, so a significand that rounds up to the next power of
two carries into the exponent. -/
def ofRatio (negative : Bool) (num den : Nat) : Binary64 :=
  if num = 0 then pack negative 0
  else
    let q := scaleOf num den
    let (n, d) := descale num den q
    let magnitude := (q + 1074).toNat * leadingBit + roundHalfEven n d
    pack negative (min magnitude (2047 * leadingBit))

/-- The number nearest to a natural. -/
def ofNat (n : Nat) : Binary64 :=
  ofRatio false n 1

/-- A byte is its own nearest number, and an integer of the exact range. -/
theorem safeInteger?_ofNat_of_lt {n : Nat} (h : n < 256) :
    (ofNat n).safeInteger? = some (n : Int) := by
  have hall : ∀ n < 256, (ofNat n).safeInteger? = some (n : Int) := by decide +kernel
  exact hall n h

/-- One more than the place of the leading digit of every finite number. -/
def maxPlaces : Int := 309

/-- A number whose leading digit stands further behind the point than this rounds to
zero. -/
def minPlaces : Int := -324

/-- The number nearest to `digits * 10 ^ exponent`, with the given sign. What is far
out of range is not computed. -/
def ofDecimal (negative : Bool) (digits : Nat) (exponent : Int) : Binary64 :=
  let places := exponent + (Nat.toDigits 10 digits).length
  if digits = 0 ∨ places < minPlaces then pack negative 0
  else if maxPlaces < places then pack negative (2047 * leadingBit)
  else ofRatio negative (digits * tenTo exponent.toNat) (tenTo (-exponent).toNat)

example : (ofRatio false 1 10).bits = 0x3fb999999999999a := by decide
example : (ofRatio true 1 3).bits = 0xbfd5555555555555 := by decide
example : (ofRatio false 9007199254740993 1).bits = 0x4340000000000000 := by decide
example : (ofDecimal false 24703282292062328 (-340)).bits = 1 := by decide +kernel
example : (ofDecimal true 17976931348623158 292).bits = 0xffefffffffffffff := by decide +kernel
example : (ofDecimal false 17976931348623159 292).isInfinite = true := by decide +kernel

end Binary64

end CairoForge
