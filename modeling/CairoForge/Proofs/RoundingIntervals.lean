import CairoForge.Binary64.Shortest
import Mathlib.Algebra.Order.Field.Power
import Mathlib.Data.Rat.Cast.Order
import Mathlib.Tactic.FieldSimp
import Mathlib.Tactic.Linarith
import Mathlib.Tactic.NormNum
import Mathlib.Tactic.Positivity
import Mathlib.Tactic.Ring

/-!
# Rounding intervals

The decimals that are read as a number lie in an interval around it. The shortest decimal lies in
the interval of its number, and the intervals of different numbers have nothing in common: where
two of them touch, one does not hold its end. So a decimal stands for one number at most.

## Main definitions

* `Decimal.value` — the value of a decimal.
* `Magnitude.Rounds` — the values that are rounded to a number.
* `Magnitude.IsNormal` — the magnitudes of the 64-bit format.

## Main results

* `Magnitude.readsBack_iff` — decimals are compared by their values.
* `Magnitude.rounds_shortest` — the shortest decimal is rounded to its number.
* `Magnitude.eq_of_rounds` — a value is rounded to one number at most.
-/

namespace CairoForge

/-- The value of a decimal. -/
def Decimal.value (d : Decimal) : ℚ :=
  d.digits * 10 ^ d.exponent

/-- Zeros at the end of the digits make no difference. -/
theorem Decimal.value_trim (d : Decimal) : d.trim.value = d.value := by
  induction d using Decimal.trim.induct with
  | case1 d h ih =>
    rw [trim, dif_pos h, ih, value, value]
    have hdigits : d.digits = 10 * (d.digits / 10) := by omega
    conv_rhs => rw [hdigits]
    push_cast
    rw [zpow_add₀ (by norm_num : (10 : ℚ) ≠ 0)]
    ring
  | case2 d h => rw [trim, dif_neg h]

/-- A power of an integer exponent, brought to a natural one. -/
theorem zpow_mul_pow_toNat {a : ℚ} (ha : a ≠ 0) (e : ℤ) : a ^ e * a ^ (-e).toNat = a ^ e.toNat := by
  rcases le_total 0 e with he | he
  · obtain ⟨n, rfl⟩ := Int.eq_ofNat_of_zero_le he
    simp
  · obtain ⟨n, hn⟩ := Int.eq_ofNat_of_zero_le (show 0 ≤ -e by omega)
    obtain rfl : e = -(n : ℤ) := by omega
    simp [ha]

theorem cast_tenTo (e : Nat) : ((tenTo e : Nat) : ℚ) = 10 ^ e := by
  change ((10 ^ e : Nat) : ℚ) = 10 ^ e
  push_cast
  rfl

namespace Magnitude

variable {x y : Magnitude} {v : ℚ}

/-- The factor that makes naturals of the two sides of a comparison. -/
def commonFactor (x : Magnitude) (d : Decimal) : ℚ :=
  10 ^ (-d.exponent).toNat * 2 ^ (-x.q).toNat

theorem commonFactor_pos (x : Magnitude) (d : Decimal) : 0 < x.commonFactor d := by
  rw [commonFactor]
  positivity

theorem decimal_mul_commonFactor (x : Magnitude) (d : Decimal) :
    4 * d.value * x.commonFactor d =
      ((4 * d.digits * tenTo d.exponent.toNat * x.den : Nat) : ℚ) := by
  have h := zpow_mul_pow_toNat (by norm_num : (10 : ℚ) ≠ 0) d.exponent
  rw [Decimal.value, commonFactor, den, Nat.one_shiftLeft]
  push_cast
  rw [cast_tenTo, ← h]
  ring

theorem quarters_mul_commonFactor (x : Magnitude) (d : Decimal) (quarters : Nat) :
    (quarters * 2 ^ x.q : ℚ) * x.commonFactor d =
      (((quarters <<< x.q.toNat) * tenTo (-d.exponent).toNat : Nat) : ℚ) := by
  have h := zpow_mul_pow_toNat (by norm_num : (2 : ℚ) ≠ 0) x.q
  rw [commonFactor, Nat.shiftLeft_eq]
  push_cast
  rw [cast_tenTo, ← h]
  ring

/-- **Decimals are compared by their values.** -/
theorem compareQuarters_eq (x : Magnitude) (d : Decimal) (quarters : Nat) :
    x.compareQuarters d quarters = compare (4 * d.value) (quarters * 2 ^ x.q) := by
  have hpos := x.commonFactor_pos d
  have hdecimal := x.decimal_mul_commonFactor d
  have hquarters := x.quarters_mul_commonFactor d quarters
  rw [compareQuarters]
  -- both sides are multiplied by one positive number, which keeps their order
  rcases lt_trichotomy (4 * d.value) (quarters * 2 ^ x.q) with h | h | h
  · rw [compare_lt_iff_lt.mpr h, compare_lt_iff_lt]
    have := mul_lt_mul_of_pos_right h hpos
    rw [hdecimal, hquarters] at this
    exact_mod_cast this
  · rw [compare_eq_iff_eq.mpr h, compare_eq_iff_eq]
    have := congrArg (· * x.commonFactor d) h
    simp only [hdecimal, hquarters] at this
    exact_mod_cast this
  · rw [compare_gt_iff_gt.mpr h, compare_gt_iff_gt]
    have := mul_lt_mul_of_pos_right h hpos
    rw [hdecimal, hquarters] at this
    exact_mod_cast this

/-- **The values that are rounded to a number**: those between the ends of its interval, which
belong to it if its last bit is zero. -/
def Rounds (x : Magnitude) (v : ℚ) : Prop :=
  if x.m % 2 = 0 then x.lowQuarters * 2 ^ x.q ≤ 4 * v ∧ 4 * v ≤ x.highQuarters * 2 ^ x.q
  else x.lowQuarters * 2 ^ x.q < 4 * v ∧ 4 * v < x.highQuarters * 2 ^ x.q

theorem readsBack_iff {d : Decimal} : x.readsBack d = true ↔ x.Rounds d.value := by
  simp only [readsBack, Rounds, compareQuarters_eq]
  split
  · rw [Bool.and_eq_true, bne_iff_ne, bne_iff_ne, Ne, Ne, compare_lt_iff_lt, compare_gt_iff_gt,
      not_lt, not_lt]
  · rw [Bool.and_eq_true, beq_iff_eq, beq_iff_eq, compare_lt_iff_lt, compare_gt_iff_gt]

theorem Rounds.bounds (h : x.Rounds v) :
    x.lowQuarters * 2 ^ x.q ≤ 4 * v ∧ 4 * v ≤ x.highQuarters * 2 ^ x.q := by
  rw [Rounds] at h
  split at h
  · exact h
  · exact ⟨h.1.le, h.2.le⟩

theorem Rounds.bounds_of_odd (h : x.Rounds v) (hodd : x.m % 2 = 1) :
    x.lowQuarters * 2 ^ x.q < 4 * v ∧ 4 * v < x.highQuarters * 2 ^ x.q := by
  rw [Rounds, if_neg (by omega)] at h
  exact h

/-- What is rounded to a positive number is positive. -/
theorem Rounds.pos (h : x.Rounds v) (hm : 0 < x.m) : 0 < v := by
  have hlow : 0 < x.lowQuarters := by rw [lowQuarters]; split <;> omega
  have hend : (0 : ℚ) < x.lowQuarters * 2 ^ x.q := by positivity
  linarith [h.bounds.1]

/-- The interval of a number holds the number. -/
theorem rounds_exactly (hm : 0 < x.m) : x.Rounds x.exactly.value := by
  have hpower : (0 : ℚ) < 2 ^ x.q := by positivity
  have hvalue : x.exactly.value = x.m * 2 ^ x.q := by
    rw [exactly]
    split
    · next hq =>
      obtain ⟨n, hn⟩ := Int.eq_ofNat_of_zero_le hq
      simp [Decimal.value, num, hn, Nat.shiftLeft_eq]
    · next hq =>
      obtain ⟨n, hn⟩ := Int.eq_ofNat_of_zero_le (show 0 ≤ -x.q by omega)
      obtain hq : x.q = -(n : ℤ) := by omega
      have hten : (10 : ℚ) ^ n = 5 ^ n * 2 ^ n := by rw [← mul_pow]; norm_num
      change ((x.m * 5 ^ (-x.q).toNat : Nat) : ℚ) * 10 ^ x.q = _
      rw [hq, neg_neg, Int.toNat_natCast, zpow_neg, zpow_neg, zpow_natCast, zpow_natCast, hten]
      push_cast
      field_simp
  -- the value lies strictly between the ends of its own interval
  have hlow : (x.lowQuarters : ℚ) < 4 * x.m := by
    have : x.lowQuarters < 4 * x.m := by rw [lowQuarters]; split <;> omega
    exact_mod_cast this
  have hhigh : (4 * x.m : ℚ) < x.highQuarters := by
    rw [highQuarters]
    push_cast
    linarith
  have hbelow := mul_lt_mul_of_pos_right hlow hpower
  have habove := mul_lt_mul_of_pos_right hhigh hpower
  rw [mul_assoc] at hbelow habove
  rw [Rounds, hvalue]
  split
  · exact ⟨hbelow.le, habove.le⟩
  · exact ⟨hbelow, habove⟩

theorem nearer_eq_or (tie : Tie) (x : Magnitude) (below : Nat) (e : Int) :
    x.nearer tie below e = below ∨ x.nearer tie below e = below + 1 := by
  have hparity := Nat.mod_two_eq_zero_or_one below
  unfold nearer
  split
  · exact .inl rfl
  · exact .inr rfl
  · split <;> omega

theorem rounds_of_onGrid? {tie : Tie} {e : Int} {d : Decimal} (h : x.onGrid? tie e = some d) :
    x.Rounds d.value := by
  rw [← readsBack_iff]
  simp only [onGrid?] at h
  split at h <;> cases h
  · rcases x.nearer_eq_or tie (x.stepsBelow e) e with hnearer | hnearer <;> rwa [hnearer]
  · assumption
  · assumption

/-- **The shortest decimal is rounded to its number.** -/
theorem rounds_shortest (tie : Tie) (hm : 0 < x.m) : x.Rounds (x.shortest tie).value := by
  rw [shortest]
  cases hfound : (List.map (fun (n : Nat) => x.scale - 1 - n) (List.range 17)).findSome?
      (x.onGrid? tie) with
  | none => exact rounds_exactly hm
  | some d =>
    obtain ⟨e, -, he⟩ := List.exists_of_findSome?_eq_some hfound
    exact rounds_of_onGrid? he

/-! ## Intervals of different numbers -/

/-- **The magnitudes of the 64-bit format**: a significand of fifty-three bits, with its leading bit
unless the exponent is the least one. -/
structure InFormat (x : Magnitude) : Prop where
  pos : 0 < x.m
  lt : x.m < 2 * Binary64.leadingBit
  least : -1074 ≤ x.q
  leading : -1074 < x.q → Binary64.leadingBit ≤ x.m
  narrow : x.narrowBelow = (x.m == Binary64.leadingBit && decide (-1074 < x.q))

/-- Of two neighbours with one exponent the odd one does not hold the end between them. -/
theorem not_rounds_of_m_lt (hq : x.q = y.q) (hm : x.m < y.m) (hx : x.Rounds v) :
    ¬ y.Rounds v := by
  intro hy
  have hpower : (0 : ℚ) < 2 ^ x.q := by positivity
  obtain ⟨-, hxv⟩ := hx.bounds
  obtain ⟨hyv, -⟩ := hy.bounds
  rw [← hq] at hyv
  have hle : (y.lowQuarters : ℚ) ≤ x.highQuarters :=
    le_of_mul_le_mul_right (hyv.trans hxv) hpower
  have hends : y.lowQuarters ≤ x.highQuarters := by exact_mod_cast hle
  rw [lowQuarters, highQuarters] at hends
  -- the ends touch, so the significands are next to each other
  have hnext : y.m = x.m + 1 ∧ 4 * y.m - 2 = 4 * x.m + 2 := by
    split at hends <;> omega
  have hsame : y.lowQuarters = x.highQuarters := by
    rw [lowQuarters, highQuarters]
    split at hends <;> split <;> simp_all <;> omega
  rcases Nat.mod_two_eq_zero_or_one x.m with heven | hodd
  · have hstrict := (hy.bounds_of_odd (by omega)).1
    rw [← hq, hsame] at hstrict
    exact absurd hxv (not_le.mpr hstrict)
  · have hstrict := (hx.bounds_of_odd hodd).2
    rw [← hsame] at hstrict
    exact absurd hyv (not_le.mpr hstrict)

/-- Below a larger exponent the largest significand is odd and does not hold its end. -/
theorem not_rounds_of_q_lt (hx : x.InFormat) (hy : y.InFormat) (hq : x.q < y.q)
    (hxv : x.Rounds v) : ¬ y.Rounds v := by
  intro hyv
  have hpower : (0 : ℚ) < 2 ^ x.q := by positivity
  have hleast := hx.least
  have hbit : Binary64.leadingBit = 4503599627370496 := rfl
  have hdouble : 2 * (2 : ℚ) ^ x.q ≤ 2 ^ y.q := by
    rw [← zpow_one_add₀ (by norm_num)]
    exact zpow_le_zpow_right₀ (by norm_num) (by omega)
  have hlow : 4 * Binary64.leadingBit - 1 ≤ y.lowQuarters := by
    have hleading := hy.leading (by omega)
    rw [lowQuarters, hy.narrow]
    split
    · omega
    · next hwide =>
      have hne : y.m ≠ Binary64.leadingBit := by
        rintro hm
        simp [hm, show -1074 < y.q by omega] at hwide
      omega
  -- the interval of the larger exponent starts where the last one of the smaller exponent ends
  have hstart : ((8 * Binary64.leadingBit - 2 : Nat) : ℚ) * 2 ^ x.q ≤ 4 * v := by
    have hlow' : ((4 * Binary64.leadingBit - 1 : Nat) : ℚ) ≤ y.lowQuarters := by
      exact_mod_cast hlow
    refine le_trans ?_ hyv.bounds.1
    calc ((8 * Binary64.leadingBit - 2 : Nat) : ℚ) * 2 ^ x.q
        = ((4 * Binary64.leadingBit - 1 : Nat) : ℚ) * (2 * 2 ^ x.q) := by
          rw [hbit]
          norm_num
          ring
      _ ≤ y.lowQuarters * 2 ^ y.q := mul_le_mul hlow' hdouble (by positivity) (by positivity)
  have hends : 8 * Binary64.leadingBit - 2 ≤ x.highQuarters := by
    have h := le_of_mul_le_mul_right (hstart.trans hxv.bounds.2) hpower
    exact_mod_cast h
  have hlast : x.m = 2 * Binary64.leadingBit - 1 := by
    have hm := hx.lt
    rw [highQuarters] at hends
    omega
  have hstrict := (hxv.bounds_of_odd (by omega)).2
  have hhigh : x.highQuarters = 8 * Binary64.leadingBit - 2 := by
    rw [highQuarters]
    omega
  rw [hhigh] at hstrict
  exact absurd hstart (not_le.mpr hstrict)

/-- **A value is rounded to one number at most.** -/
theorem eq_of_rounds (hx : x.InFormat) (hy : y.InFormat) (hxv : x.Rounds v) (hyv : y.Rounds v) :
    x.m = y.m ∧ x.q = y.q := by
  rcases lt_trichotomy x.q y.q with hq | hq | hq
  · exact absurd hyv (not_rounds_of_q_lt hx hy hq hxv)
  · rcases lt_trichotomy x.m y.m with hm | hm | hm
    · exact absurd hyv (not_rounds_of_m_lt hq hm hxv)
    · exact ⟨hm, hq⟩
    · exact absurd hxv (not_rounds_of_m_lt hq.symm hm hyv)
  · exact absurd hxv (not_rounds_of_q_lt hy hx hq hyv)

end Magnitude

/-! ## Words -/

namespace Binary64

variable {x y : Binary64}

theorem fractionField_lt (x : Binary64) : x.fractionField < leadingBit :=
  Nat.mod_lt _ (by decide)

/-- The fields of a finite word. -/
theorem fields_of_datum {negative : Bool} {m : Nat} {q : Int}
    (h : x.datum = .finite negative m q) :
    x.isNegative = negative ∧ x.exponentField < 2047 ∧
      (x.exponentField = 0 ∧ x.fractionField = m ∧ q = -1074 ∨
        0 < x.exponentField ∧ leadingBit + x.fractionField = m ∧
          q = (x.exponentField : Int) - 1075) := by
  have hexponent : x.exponentField < 2048 := Nat.mod_lt _ (by decide)
  rw [datum] at h
  split at h
  · split at h <;> cases h
  · split at h <;> cases h
    · exact ⟨rfl, by omega, .inl ⟨by assumption, rfl, rfl⟩⟩
    · exact ⟨rfl, by omega, .inr ⟨by omega, rfl, rfl⟩⟩

/-- A finite word has a magnitude of the format, unless it is a zero. -/
theorem inFormat_of_datum {negative : Bool} {m : Nat} {q : Int}
    (h : x.datum = .finite negative m q) (hm : m ≠ 0) : (Magnitude.ofBinary64 m q).InFormat := by
  have hfraction := x.fractionField_lt
  obtain ⟨-, -, hfields⟩ := fields_of_datum h
  have hlt : m < 2 * leadingBit := by omega
  have hleast : -1074 ≤ q := by omega
  have hleading : -1074 < q → leadingBit ≤ m := by omega
  exact ⟨Nat.pos_of_ne_zero hm, hlt, hleast, hleading, rfl⟩

theorem q_of_datum_zero {negative : Bool} {q : Int} (h : x.datum = .finite negative 0 q) :
    q = -1074 := by
  have hbit : leadingBit = 4503599627370496 := rfl
  obtain ⟨-, -, hfields⟩ := fields_of_datum h
  omega

/-- A word is put together from its fields. -/
theorem toNat_bits (x : Binary64) :
    x.bits.toNat =
      (if x.isNegative then signBit else 0) + x.exponentField * leadingBit + x.fractionField := by
  have hlt : x.bits.toNat < 18446744073709551616 := x.bits.toNat_lt
  have hbit : leadingBit = 4503599627370496 := rfl
  have hsign : signBit = 9223372036854775808 := rfl
  simp only [isNegative, exponentField, fractionField, decide_eq_true_eq, hbit, hsign]
  split <;> omega

/-- A finite word is known by its sign, its significand and its exponent. -/
theorem eq_of_datum_eq {negative : Bool} {m : Nat} {q : Int}
    (hx : x.datum = .finite negative m q) (hy : y.datum = .finite negative m q) : x = y := by
  have hfraction := x.fractionField_lt
  have hfraction' := y.fractionField_lt
  obtain ⟨hsign, -, hfields⟩ := fields_of_datum hx
  obtain ⟨hsign', -, hfields'⟩ := fields_of_datum hy
  have hexponents : x.exponentField = y.exponentField := by omega
  have hfractions : x.fractionField = y.fractionField := by omega
  have hbits : x.bits.toNat = y.bits.toNat := by
    rw [toNat_bits, toNat_bits, hsign, hsign', hexponents, hfractions]
  obtain ⟨bits⟩ := x
  obtain ⟨bits'⟩ := y
  exact congrArg mk (UInt64.toNat_inj.mp hbits)

end Binary64

end CairoForge
