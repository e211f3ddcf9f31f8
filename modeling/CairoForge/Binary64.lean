/-!
# Binary floating point numbers

A number is the 64-bit word of the binary interchange format, read exactly: a
finite one is `m * 2 ^ q` up to sign, with natural `m` and integer `q`. Nothing
here computes with machine floating point, so every rule can be stated and
proved on naturals and integers.

## Main definitions

* `Binary64` — a word of 64 bits.
* `Binary64.datum` — what the word stands for.
* `Binary64.same` — equality of numbers: no NaN equals anything, both zeros agree.
* `Binary64.integer?` — the integer that a number is, if it is one.
* `Binary64.safeInteger?` — the same within the range where integers are exact.

## Main results

* `Binary64.eq_or_isZero_of_same` — which words stand for equal numbers.
-/

namespace CairoForge

/-- A power of ten. -/
def tenTo (e : Nat) : Nat :=
  Nat.pow 10 e

/-- A number in the 64-bit binary interchange format. -/
structure Binary64 where
  /-- One sign bit, eleven exponent bits, fifty-two fraction bits. -/
  bits : UInt64

namespace Binary64

/-- What a word stands for. -/
inductive Datum where
  /-- No number. -/
  | nan
  /-- An infinity. -/
  | infinite (negative : Bool)
  /-- The number `m * 2 ^ q`, negated if `negative`; zero keeps its sign. -/
  | finite (negative : Bool) (m : Nat) (q : Int)
  deriving DecidableEq

/-- What the sign bit adds to a word: `2 ^ 63`. -/
def signBit : Nat := 0x8000000000000000

/-- The bit in front of a fraction: `2 ^ 52`. -/
def leadingBit : Nat := 0x10000000000000

/-- Is the sign bit set? -/
def isNegative (x : Binary64) : Bool :=
  signBit ≤ x.bits.toNat

/-- The biased exponent, in eleven bits. -/
def exponentField (x : Binary64) : Nat :=
  x.bits.toNat / leadingBit % 2048

/-- The fraction below the leading bit. -/
def fractionField (x : Binary64) : Nat :=
  x.bits.toNat % leadingBit

/-- Reads a word: the largest exponent field marks infinities and NaNs, the least
one the numbers without a leading bit. -/
def datum (x : Binary64) : Datum :=
  if x.exponentField = 2047 then
    if x.fractionField = 0 then .infinite x.isNegative else .nan
  else if x.exponentField = 0 then
    .finite x.isNegative x.fractionField (-1074)
  else
    .finite x.isNegative (leadingBit + x.fractionField) ((x.exponentField : Int) - 1075)

/-- Equality of numbers. A NaN differs from everything, itself included, and the
two zeros are one number; every other number has one word. -/
def same (x y : Binary64) : Bool :=
  match x.datum, y.datum with
  | .nan, _ => false
  | _, .nan => false
  | .finite _ 0 _, .finite _ 0 _ => true
  | _, _ => x.bits == y.bits

instance : BEq Binary64 := ⟨same⟩

/-- An integer with its sign given apart. -/
def signed (negative : Bool) (n : Nat) : Int :=
  if negative then -(n : Int) else n

/-- The integer that a number is, if it is one. -/
def integer? (x : Binary64) : Option Int :=
  match x.datum with
  | .finite negative m q =>
    if 0 ≤ q then some (signed negative (m <<< q.toNat))
    else
      let whole := m >>> (-q).toNat
      if whole <<< (-q).toNat = m then some (signed negative whole) else none
  | _ => none

/-- The largest `n` such that every integer up to `n` is a number of the format
and stays distinct from its neighbours: one less than `2 ^ 53`. -/
def maxSafeInteger : Nat := 9007199254740991

/-- The integer that a number is, if it is one of at most `maxSafeInteger` in
absolute value. -/
def safeInteger? (x : Binary64) : Option Int :=
  x.integer?.filter (·.natAbs ≤ maxSafeInteger)

/-- The number with the opposite sign. -/
def negate (x : Binary64) : Binary64 :=
  ⟨x.bits ^^^ UInt64.ofNat signBit⟩

/-- Is it one of the two zeros? -/
def isZero (x : Binary64) : Bool :=
  match x.datum with
  | .finite _ 0 _ => true
  | _ => false

/-- Is it one of the two infinities? -/
def isInfinite (x : Binary64) : Bool :=
  match x.datum with
  | .infinite _ => true
  | _ => false

theorem same_nan_left {x y : Binary64} (h : x.datum = .nan) : x.same y = false := by
  simp [same, h]

theorem datum_ne_nan_of_same {x y : Binary64} (h : x.same y = true) : x.datum ≠ .nan := by
  intro hnan
  rw [same_nan_left hnan] at h
  cases h

/-- Every number but NaN equals itself. -/
theorem same_self {x : Binary64} (h : x.datum ≠ .nan) : x.same x = true := by
  unfold same
  split
  · exact absurd ‹_› h
  · exact absurd ‹_› h
  · rfl
  · exact beq_self_eq_true _

/-- An integer is no NaN. -/
theorem datum_ne_nan_of_safeInteger? {x : Binary64} {i : Int} (h : x.safeInteger? = some i) :
    x.datum ≠ .nan := by
  intro hnan
  have hnone : x.integer? = none := by rw [integer?, hnan]
  rw [safeInteger?, hnone] at h
  cases h

/-- Equal numbers have one word, unless they are the two zeros. -/
theorem eq_or_isZero_of_same {x y : Binary64} (h : x.same y = true) :
    x = y ∨ (x.isZero = true ∧ y.isZero = true) := by
  unfold same at h
  unfold isZero
  split at h
  · cases h
  · cases h
  · next hx hy =>
    rw [hx, hy]
    exact .inr ⟨rfl, rfl⟩
  · obtain ⟨xbits⟩ := x
    obtain ⟨ybits⟩ := y
    exact .inl (congrArg _ (beq_iff_eq.mp h))

/-- Both zeros are the integer zero. -/
theorem safeInteger?_of_isZero {x : Binary64} (h : x.isZero = true) : x.safeInteger? = some 0 := by
  unfold isZero at h
  split at h
  · next negative q hx =>
    have hinteger : x.integer? = some 0 := by
      unfold integer?
      rw [hx]
      cases negative <;> simp [signed]
    rw [safeInteger?, hinteger]
    rfl
  · cases h

example : (Binary64.mk 0x8000000000000000).same ⟨0⟩ = true := by decide
example : (Binary64.mk 0x7ff8000000000000).same ⟨0x7ff8000000000000⟩ = false := by decide
example : (Binary64.mk 0x4340000000000000).safeInteger? = none := by decide
example : (Binary64.mk 0xc33fffffffffffff).safeInteger? = some (-9007199254740991) := by decide

end Binary64

end CairoForge
