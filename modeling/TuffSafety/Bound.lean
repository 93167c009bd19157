import TuffSafety.Ast

/-!
# Integer bounds

Bounds are integers of 128 bits; a bound that arithmetic would carry outside them is unknown.
-/
namespace TuffSafety

namespace Bound

def least : Int := -0x80000000000000000000000000000000

def greatest : Int := 0x7fffffffffffffffffffffffffffffff

/-- A number that a bound can hold. -/
def checked (n : Int) : Option Int :=
  if least ≤ n ∧ n ≤ greatest then some n else none

def lesser (a b : Option Int) : Option Int :=
  match a, b with
  | some a, some b => some (min a b)
  | _, _ => none

def greater (a b : Option Int) : Option Int :=
  match a, b with
  | some a, some b => some (max a b)
  | _, _ => none

/-- The bounds of a signed 32-bit number. -/
def int32 : Int × Int := (-0x80000000, 0x7fffffff)

end Bound

/-- A least and a greatest value. -/
abbrev Interval : Type := Int × Int

namespace Interval

open TuffSafety.Bound (checked)

/-- The least and greatest result of an operation on two intervals; none when the operation has no
rule or a needed bound is not representable. -/
def propagate : BinaryOp → Interval → Interval → Option Interval
  | .add, (a, b), (c, d) => do
    let low ← checked (a + c)
    let high ← checked (b + d)
    some (low, high)
  | .sub, (a, b), (c, d) => do
    let low ← checked (a - d)
    let high ← checked (b - c)
    some (low, high)
  | .mul, (a, b), (c, d) => do
    let ac ← checked (a * c)
    let ad ← checked (a * d)
    let bc ← checked (b * c)
    let bd ← checked (b * d)
    some (min (min ac ad) (min bc bd), max (max ac ad) (max bc bd))
  | _, _, _ => none

end Interval

end TuffSafety
