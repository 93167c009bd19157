import TuffSafety.Decimal.Shortest

/-!
# Decimals as binary64 numbers

The binary64 number nearest to a decimal, found by exact division; a half goes to the even
neighbour.
-/
namespace TuffSafety.Decimal

/-- The quotient rounded to the nearest whole number, a half to the even one. -/
def roundDiv (num den : Nat) : Nat :=
  let quotient := num / den
  let twice := 2 * (num % den)
  if twice < den ∨ (twice = den ∧ quotient % 2 = 0) then quotient else quotient + 1

/-- The power of two that the last of 53 binary digits of `num / den` stands for; it is not below
that of the least binary64 number. -/
def lastPlace (num den : Nat) : Int :=
  let a := num.log2
  let b := den.log2
  let reaches := den * Nat.pow 2 (a - b) ≤ num * Nat.pow 2 (b - a)
  let power : Int := (a : Int) - b - (if reaches then 52 else 53)
  max power (-1074)

/-- The bits of the binary64 number nearest to `num / den`, where neither is zero. -/
def nearestBits (num den : Nat) : Nat :=
  let place := lastPlace num den
  let mantissa := roundDiv (num * Nat.pow 2 (-place).toNat) (den * Nat.pow 2 place.toNat)
  let bits := (place + 1074).toNat * 0x10000000000000 + mantissa
  min bits (0x7ff * 0x10000000000000)

def toFloat (d : Decimal) : Float :=
  if d.digits = 0 then 0
  else Float.ofBits
    (nearestBits (d.digits * Nat.pow 10 d.exponent.toNat) (Nat.pow 10 (-d.exponent).toNat)).toUInt64

end TuffSafety.Decimal
