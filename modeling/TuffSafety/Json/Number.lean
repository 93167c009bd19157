import TuffSafety.Decimal.Nearest
import TuffSafety.Json.Value

/-!
# Numbers in JSON

The value of a written number. A whole number of 64 bits, signed or unsigned, is kept exactly; any
other number becomes a float, made from as many leading digits as 64 bits hold and one power of ten.
-/
namespace TuffSafety.Json

/-- The parts of a written number. -/
structure Numeral where
  negative : Bool
  whole : List Char
  fraction : Option (List Char)
  /-- The sign and the digits of the exponent. -/
  exponent : Option (Bool × List Char)
deriving DecidableEq, Repr

namespace Numeral

def digit (c : Char) : Nat :=
  c.toNat - '0'.toNat

/-- The number with one more digit, if 64 bits hold it. -/
def push? (n : Nat) (c : Char) : Option Nat :=
  if n * 10 + digit c < 0x10000000000000000 then some (n * 10 + digit c) else none

/-- The leading digits of a whole part that 64 bits hold, and how many digits follow them. -/
def wholeDigits : Nat → List Char → Nat × Nat
  | n, [] => (n, 0)
  | n, c :: cs =>
    match push? n c with
    | some n => wholeDigits n cs
    | none => (n, cs.length + 1)

/-- The digits of a fraction added to a number as long as 64 bits hold it, and how many were. -/
def fractionDigits : Nat → List Char → Nat × Nat
  | n, [] => (n, 0)
  | n, c :: cs =>
    match push? n c with
    | some n =>
      let (n, used) := fractionDigits n cs
      (n, used + 1)
    | none => (n, 0)

def natOf (digits : List Char) : Nat :=
  digits.foldl (fun n c => n * 10 + digit c) 0

def powerOfTen (n : Nat) : Float :=
  Decimal.toFloat ⟨1, n⟩

/-- A float times a power of ten. Below the smallest power a float can hold, it is divided in steps,
`steps` of them at most. A result that is not finite has no value. -/
def scaled : Nat → Float → Int → Option Float
  | 0, x, _ => some x
  | steps + 1, x, power =>
    if power.natAbs ≤ 308 then
      if 0 ≤ power then
        let y := x * powerOfTen power.natAbs
        if y.isInf then none else some y
      else some (x / powerOfTen power.natAbs)
    else if x == 0 then some x
    else if 0 ≤ power then none
    else scaled steps (x / powerOfTen 308) (power + 308)

def signed (negative : Bool) (x : Float) : Float :=
  if negative then -x else x

def floatOf (negative : Bool) (digits : Nat) (power : Int) : Option Json :=
  (scaled 4 (UInt64.toFloat digits.toUInt64) power).map fun x => .float (signed negative x)

/-- The float of a number whose exponent is too large for 32 bits. -/
def extremeFloat (negative : Bool) (digits : Nat) (exponentNegative : Bool) : Option Json :=
  if digits = 0 || exponentNegative then some (.float (signed negative 0)) else none

def integerOf (negative : Bool) (n : Nat) : Json :=
  if !negative then .int n
  else if 0 < n && n ≤ 0x8000000000000000 then .int (-n)
  else .float (-(UInt64.toFloat n.toUInt64))

/-- The value of a number; none when it is too large for a float. -/
def value (numeral : Numeral) : Option Json :=
  let (digits, dropped) := wholeDigits 0 numeral.whole
  match numeral.fraction, numeral.exponent with
  | none, none =>
    if dropped = 0 then some (integerOf numeral.negative digits)
    else floatOf numeral.negative digits dropped
  | fraction, exponent =>
    let (digits, used) := fractionDigits digits (fraction.getD [])
    let power : Int := (dropped : Int) - used
    match exponent with
    | none => floatOf numeral.negative digits power
    | some (exponentNegative, exponentDigits) =>
      let n := natOf exponentDigits
      if 0x80000000 ≤ n then extremeFloat numeral.negative digits exponentNegative
      else floatOf numeral.negative digits (if exponentNegative then power - n else power + n)

end Numeral

end TuffSafety.Json
