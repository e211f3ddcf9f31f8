import CairoForge.Binary64.Rounding

/-!
# Scaling by powers of ten

A number times a power of ten, as a machine computes it: the power is a number of the
format itself, and every product and quotient is rounded. The result may differ from
the number nearest to the exact product.

## Main definitions

* `Binary64.mulNat`, `Binary64.divNat` — products and quotients with naturals, each
  rounded once.
* `Binary64.powerOfTen` — the powers of ten as numbers of the format.
* `Binary64.scaleByTen` — a number times a power of ten.
-/

namespace CairoForge

namespace Binary64

/-- The product with a natural, rounded. -/
def mulNat (x : Binary64) (n : Nat) : Binary64 :=
  match x.datum with
  | .finite negative m q =>
    let (num, den) := descale (m * n) 1 (-q)
    ofRatio negative num den
  | _ => x

/-- The quotient by a natural, rounded. -/
def divNat (x : Binary64) (n : Nat) : Binary64 :=
  match x.datum with
  | .finite negative m q =>
    let (num, den) := descale m n (-q)
    ofRatio negative num den
  | _ => x

/-- The exponent of the largest power of ten within the range of the format. -/
def maxPower : Nat := 308

/-- The number nearest to a power of ten, which is a natural. -/
def powerOfTen (e : Nat) : Nat :=
  match (ofNat (tenTo e)).datum with
  | .finite _ m q => if 0 ≤ q then m <<< q.toNat else m >>> (-q).toNat
  | _ => tenTo e

/-- A number divided by the largest power of ten, over and over until it is zero. -/
def lower (x : Binary64) : Nat → Binary64
  | 0 => x
  | steps + 1 => if x.isZero then x else (x.divNat (powerOfTen maxPower)).lower steps

/-- A number times `10 ^ e`, in as few steps as the range of the format allows. Larger
powers than that range holds lead to an infinity, smaller ones are taken apart. -/
def scaleByTen (x : Binary64) (e : Int) : Binary64 :=
  let size := e.natAbs
  if x.isZero then x
  else if 0 ≤ e then
    if size ≤ maxPower then x.mulNat (powerOfTen size)
    else pack x.isNegative (2047 * leadingBit)
  else
    let steps := (size - 1) / maxPower
    (x.lower steps).divNat (powerOfTen (size - maxPower * steps))

example : ((ofNat 112).scaleByTen 146).bits = 0x5eac07773f879a2b := by decide +kernel
example : ((ofNat 1).scaleByTen 309).isInfinite = true := by decide +kernel
example : ((ofNat 5).scaleByTen (-324)).bits = 1 := by decide +kernel
example : ((ofNat 1).scaleByTen (-2147483648)).isZero = true := by decide +kernel

end Binary64

end CairoForge
