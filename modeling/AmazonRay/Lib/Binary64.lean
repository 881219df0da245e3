import Mathlib

/-! Rounding to the rationals with 53 significant bits, to the nearest with ties to even. Exponents have no bounds. -/
namespace AmazonRay.Binary64

def roundHalfEven (p q : ℕ) : ℕ :=
  let quotient := p / q
  let remainder := 2 * (p % q)
  if q < remainder ∨ (remainder = q ∧ quotient % 2 = 1) then quotient + 1 else quotient

def scaled (p q : ℕ) (e : ℤ) : ℕ × ℕ := (p * 2 ^ (-e).toNat, q * 2 ^ e.toNat)

def lastBit (p q : ℕ) : ℤ :=
  let e := (Nat.log2 p : ℤ) - Nat.log2 q - 52
  if (scaled p q e).1 < 2 ^ 52 * (scaled p q e).2 then e - 1 else e

def nearestOfFraction (p q : ℕ) : ℚ :=
  if p = 0 then 0
  else
    let e := lastBit p q
    let significand := roundHalfEven (scaled p q e).1 (scaled p q e).2
    (significand * 2 ^ e.toNat : ℕ) / (2 ^ (-e).toNat : ℕ)

def nearest (x : ℚ) : ℚ :=
  if 0 ≤ x then nearestOfFraction x.num.natAbs x.den else -nearestOfFraction x.num.natAbs x.den

example : nearest (1 / 10) = 3602879701896397 / 36028797018963968 := by decide +kernel

end AmazonRay.Binary64
