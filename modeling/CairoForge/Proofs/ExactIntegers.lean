import CairoForge.Binary64
import Mathlib.Algebra.Order.Field.Power
import Mathlib.Data.Rat.Cast.Order
import Mathlib.Tactic.NormNum

/-!
# Exact integers

A finite number is an integer times a power of two, and so a rational number. Whether it is an
integer is decided by shifts of its digits, and what the shifts find is the exact value.

## Main definitions

* `Binary64.exactValue?` — the rational number that a word stands for, if it stands for one.
* `Binary64.IsSafeInteger` — the integers up to `2 ^ 53 - 1` in absolute value.

## Main results

* `Binary64.integer?_eq_some_iff` — the integer of a number is its exact value.
* `Binary64.safeInteger?_eq_some_iff`, `Binary64.safeInteger?_eq_none_iff` — the same within the
  range where integers are exact.
-/

namespace CairoForge

namespace Binary64

variable {x : Binary64} {i : ℤ}

/-- The rational number that a word stands for; NaN and infinities stand for none. -/
def exactValue? (x : Binary64) : Option ℚ :=
  match x.datum with
  | .finite negative m q => some (signed negative m * 2 ^ q)
  | _ => none

/-- **Integers that are exact**: those of at most `2 ^ 53 - 1` in absolute value. -/
def IsSafeInteger (x : Binary64) : Prop :=
  ∃ i : ℤ, |i| ≤ 2 ^ 53 - 1 ∧ x.exactValue? = some (i : ℚ)

/-! ## Signs -/

theorem signed_mul (negative : Bool) (m n : Nat) :
    signed negative (m * n) = signed negative m * n := by
  cases negative with
  | true => simp [signed]
  | false => simp [signed]

theorem natAbs_signed (negative : Bool) (n : Nat) : (signed negative n).natAbs = n := by
  cases negative with
  | true => simp [signed]
  | false => simp [signed]

/-! ## Shifts -/

/-- A power of two with a negative exponent divides, so it stands on the other side of an
equation. -/
theorem mul_zpow_eq_iff {q : ℤ} (hq : q < 0) (a : ℤ) :
    (a * 2 ^ q : ℚ) = i ↔ a = i * 2 ^ (-q).toNat := by
  obtain ⟨k, hk⟩ := Int.eq_ofNat_of_zero_le (show 0 ≤ -q by omega)
  obtain rfl : q = -(k : ℤ) := by omega
  have hpos : (2 : ℚ) ^ k ≠ 0 := by positivity
  -- the equation is one of rational numbers until the power is on the other side
  rw [zpow_neg, zpow_natCast, neg_neg, Int.toNat_natCast, ← div_eq_mul_inv, div_eq_iff hpos]
  exact_mod_cast Iff.rfl

/-- Digits shifted out and back again are the same just when they were zeros. -/
theorem shiftLeft_shiftRight_eq_iff (m k : Nat) : (m >>> k) <<< k = m ↔ 2 ^ k ∣ m := by
  rw [Nat.shiftRight_eq_div_pow, Nat.shiftLeft_eq]
  constructor
  · intro h
    exact ⟨m / 2 ^ k, by rw [mul_comm, h]⟩
  · exact Nat.div_mul_cancel

/-- **The integer of a number is its exact value.** -/
theorem integer?_eq_some_iff : x.integer? = some i ↔ x.exactValue? = some (i : ℚ) := by
  unfold integer? exactValue?
  cases x.datum with
  | nan => simp
  | infinite negative => simp
  | finite negative m q =>
    dsimp only
    by_cases hq : 0 ≤ q
    · -- the digits are shifted to the left, and nothing is lost
      obtain ⟨k, rfl⟩ := Int.eq_ofNat_of_zero_le hq
      rw [if_pos hq, Option.some.injEq, Option.some.injEq, Int.toNat_natCast, Nat.shiftLeft_eq,
        signed_mul, zpow_natCast]
      push_cast
      exact_mod_cast Iff.rfl
    · rw [if_neg hq, Option.some.injEq, mul_zpow_eq_iff (by omega)]
      generalize (-q).toNat = k
      by_cases hdvd : 2 ^ k ∣ m
      · -- the digits in front of the point are all there is
        obtain ⟨n, rfl⟩ := hdvd
        have hwhole : (2 ^ k * n) >>> k = n := by
          rw [Nat.shiftRight_eq_div_pow, Nat.mul_div_cancel_left n (by positivity)]
        have hpos : (2 : ℤ) ^ k ≠ 0 := by positivity
        rw [if_pos ((shiftLeft_shiftRight_eq_iff _ _).mpr (Nat.dvd_mul_right _ n)), hwhole,
          Option.some.injEq, mul_comm, signed_mul]
        push_cast
        exact (mul_left_inj' hpos).symm
      · -- a digit behind the point is no zero, so no integer is equal
        rw [if_neg (mt (shiftLeft_shiftRight_eq_iff _ _).mp hdvd)]
        refine iff_of_false nofun fun hi => hdvd ?_
        have hm := congrArg Int.natAbs hi
        rw [natAbs_signed, Int.natAbs_mul, Int.natAbs_pow] at hm
        exact ⟨i.natAbs, hm.trans (mul_comm _ _)⟩

/-- The integer of a number within the range where integers are exact. -/
theorem safeInteger?_eq_some_iff :
    x.safeInteger? = some i ↔ |i| ≤ 2 ^ 53 - 1 ∧ x.exactValue? = some (i : ℚ) := by
  have hrange : i.natAbs ≤ maxSafeInteger ↔ |i| ≤ 2 ^ 53 - 1 := by
    rw [Int.abs_eq_natAbs, maxSafeInteger]
    omega
  rw [safeInteger?, Option.filter_eq_some_iff, integer?_eq_some_iff, decide_eq_true_iff, hrange,
    and_comm]

theorem safeInteger?_eq_none_iff : x.safeInteger? = none ↔ ¬x.IsSafeInteger := by
  rw [Option.eq_none_iff_forall_ne_some, IsSafeInteger, not_exists]
  exact forall_congr' fun i => not_congr safeInteger?_eq_some_iff

end Binary64

end CairoForge
