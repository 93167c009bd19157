/-!
# Shortest decimals of binary64 numbers

The fewest significant digits that still read back as the same number, found by exact comparison on
natural numbers.
-/
namespace TuffSafety

/-- The number `digits · 10 ^ exponent`. -/
structure Decimal where
  digits : Nat
  exponent : Int
deriving DecidableEq, Repr

namespace Decimal

/-- Which of two equally near decimals is taken. -/
inductive Tie where
  | up
  | even
deriving DecidableEq, Repr

/-- The magnitude of a binary64 number; a finite one is `mantissa · 2 ^ exponent`. -/
inductive Magnitude where
  | finite (mantissa : Nat) (exponent : Int)
  | infinite
  | notANumber
deriving DecidableEq, Repr

def Magnitude.ofFloat (x : Float) : Magnitude :=
  let word : Nat := x.toBits.toNat
  let fraction : Nat := word % 0x10000000000000
  let biased : Nat := word / 0x10000000000000 % 0x800
  if biased = 2047 then
    if fraction = 0 then .infinite else .notANumber
  else if biased = 0 then .finite fraction (-1074)
  else .finite (0x10000000000000 + fraction) ((biased : Int) - 1075)

def isNegative (x : Float) : Bool :=
  0x8000000000000000 ≤ x.toBits.toNat

/-- A positive value with the ends of the interval of reals that round to it, all three in units of
`unitNum / unitDen`. The ends belong to the interval when `closed`. -/
structure Rounding where
  low : Nat
  value : Nat
  high : Nat
  unitNum : Nat
  unitDen : Nat
  closed : Bool
deriving DecidableEq, Repr

/-- Quarter units keep the narrow gap below a power of two integral. -/
def Rounding.ofFinite (mantissa : Nat) (exponent : Int) : Rounding where
  low := if mantissa = 0x10000000000000 ∧ -1074 < exponent then 4 * mantissa - 1 else 4 * mantissa - 2
  value := 4 * mantissa
  high := 4 * mantissa + 2
  unitNum := Nat.pow 2 (exponent - 2).toNat
  unitDen := Nat.pow 2 (2 - exponent).toNat
  closed := mantissa % 2 = 0

/-- The same triple with `10 ^ power` as the unit of the grid: quantities are compared after
multiplication by the first component, grid points after multiplication by the second. -/
def Rounding.onGrid (r : Rounding) (power : Int) : Nat × Nat :=
  (r.unitNum * Nat.pow 10 (-power).toNat, r.unitDen * Nat.pow 10 power.toNat)

/-- Whether the grid point `d · 10 ^ power` reads back as the value. -/
def Rounding.contains (r : Rounding) (power : Int) (d : Nat) : Bool :=
  let (a, b) := r.onGrid power
  if r.closed then r.low * a ≤ d * b && d * b ≤ r.high * a
  else r.low * a < d * b && d * b < r.high * a

/-- The nearest grid point that reads back as the value, if there is one. -/
def Rounding.pick (r : Rounding) (tie : Tie) (power : Int) : Option Nat :=
  let (a, b) := r.onGrid power
  let d := r.value * a / b
  let below := r.value * a - d * b
  let above := (d + 1) * b - r.value * a
  match r.contains power d, r.contains power (d + 1) with
  | true, true =>
    if below < above then some d
    else if above < below then some (d + 1)
    else match tie with
      | .up => some (d + 1)
      | .even => some (if d % 2 = 0 then d else d + 1)
  | true, false => some d
  | false, true => some (d + 1)
  | false, false => none

def digitCount (n : Nat) : Nat :=
  (Nat.toDigits 10 n).length

/-- The power of ten of the leading digit of the value. -/
def Rounding.leading (r : Rounding) : Int :=
  let guess : Int := (digitCount (r.value * r.unitNum) : Int) - digitCount r.unitDen
  let (a, b) := r.onGrid guess
  if b ≤ r.value * a then guess else guess - 1

/-- Tries grids of growing fineness, starting with `count` digits; seventeen digits always suffice. -/
def Rounding.search (r : Rounding) (tie : Tie) (leading : Int) : Nat → Nat → Decimal
  | 0, count =>
    let power := leading + 1 - count
    let (a, b) := r.onGrid power
    ⟨r.value * a / b, power⟩
  | left + 1, count =>
    let power := leading + 1 - count
    match r.pick tie power with
    | some d => ⟨d, power⟩
    | none => r.search tie leading left (count + 1)

/-- Moves trailing zeros of the digits into the exponent, at most `limit` of them. -/
def stripZeros : Nat → Decimal → Decimal
  | 0, d => d
  | limit + 1, d =>
    if d.digits % 10 = 0 ∧ d.digits ≠ 0 then stripZeros limit ⟨d.digits / 10, d.exponent + 1⟩ else d

/-- The shortest decimal that reads back as `mantissa · 2 ^ exponent`, the nearest one of that
length. -/
def shortest (tie : Tie) (mantissa : Nat) (exponent : Int) : Decimal :=
  if mantissa = 0 then ⟨0, 0⟩
  else
    let r := Rounding.ofFinite mantissa exponent
    stripZeros 20 (r.search tie r.leading 17 1)

end Decimal

end TuffSafety
