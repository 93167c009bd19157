import TuffSafety.Decimal.Shortest

/-!
# Layout of decimals

How shortest decimals are written as text: positionally or with an exponent.
-/
namespace TuffSafety.Decimal

/-- The decisions of a written form of binary64 numbers. -/
structure Layout where
  tie : Tie
  /-- Whether a number whose leading digit stands for this power of ten is written positionally. -/
  positional : Int → Bool
  /-- Whether a whole number keeps the fraction `.0`. -/
  wholeFraction : Bool
  infinite : String
  notANumber : String

def zeros (n : Nat) : String :=
  String.ofList (List.replicate n '0')

/-- `digits · 10 ^ exponent` without an exponent mark. -/
def positionalText (wholeFraction : Bool) (d : Decimal) : String :=
  let digits := Nat.toDigits 10 d.digits
  let point : Int := (digits.length : Int) + d.exponent
  if 0 ≤ d.exponent then
    String.ofList digits ++ zeros d.exponent.toNat ++ (if wholeFraction then ".0" else "")
  else if 0 < point then
    String.ofList (digits.take point.toNat) ++ "." ++ String.ofList (digits.drop point.toNat)
  else
    "0." ++ zeros (-point).toNat ++ String.ofList digits

/-- One digit before the point, then the power of ten with its sign. -/
def exponentText (d : Decimal) : String :=
  let digits := Nat.toDigits 10 d.digits
  let power : Int := (digits.length : Int) + d.exponent - 1
  let fraction := match digits.drop 1 with
    | [] => ""
    | rest => "." ++ String.ofList rest
  let sign := if power < 0 then "-" else "+"
  String.ofList (digits.take 1) ++ fraction ++ "e" ++ sign ++ toString power.natAbs

def Layout.decimalText (layout : Layout) (d : Decimal) : String :=
  let power : Int := (digitCount d.digits : Int) + d.exponent - 1
  if layout.positional power then positionalText layout.wholeFraction d else exponentText d

def Layout.text (layout : Layout) (x : Float) : String :=
  let sign := if isNegative x then "-" else ""
  match Magnitude.ofFloat x with
  | .finite mantissa exponent => sign ++ layout.decimalText (shortest layout.tie mantissa exponent)
  | .infinite => sign ++ layout.infinite
  | .notANumber => layout.notANumber

/-- Numbers in messages: always positional, a whole number without a fraction, a half away from
zero. -/
def Layout.message : Layout where
  tie := .up
  positional := fun _ => true
  wholeFraction := false
  infinite := "inf"
  notANumber := "NaN"

/-- Numbers in JSON: positional from `10 ^ -5` to below `10 ^ 16`, a whole number with the fraction
`.0`, a half to the even neighbour. -/
def Layout.json : Layout where
  tie := .even
  positional := fun power => -5 ≤ power && power < 16
  wholeFraction := true
  infinite := "inf"
  notANumber := "NaN"

end TuffSafety.Decimal
