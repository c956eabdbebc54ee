import Depthwise.Binary.Format

namespace Depthwise.Binary

def nearestEven (x : Rat) : Int :=
  let below := x.floor
  let rest := x - below
  if rest < 1 / 2 then below
  else if 1 / 2 < rest then below + 1
  else if below % 2 = 0 then below else below + 1

def leadingExponent (x : Rat) : Int :=
  let guess : Int := (x.num.toNat.log2 : Int) - x.den.log2
  if (2 : Rat) ^ guess ≤ x then guess else guess - 1

variable (F : Format)

/-- The exponent of the last place that a value near the positive `x` has. -/
def Format.placeOf (x : Rat) : Int :=
  max F.minExponent (leadingExponent x - (F.precision - 1 : Nat))

variable {F}

def ofParts (negative : Bool) (significand : Nat) (exponent : Int) : Binary F :=
  if h : F.Canonical significand exponent then .finite negative significand exponent h
  else .infinite negative

def zero (negative : Bool) : Binary F := ofParts negative 0 F.minExponent

/-- The value nearest to the magnitude `x`, with the given sign. A significand that rounds up to
the next power of two moves to the next exponent. -/
def roundMagnitude (negative : Bool) (x : Rat) : Binary F :=
  if x = 0 then zero negative
  else
    let place := F.placeOf x
    let m := (nearestEven (x / (2 : Rat) ^ place)).toNat
    if m = 2 * F.fractions then ofParts negative F.fractions (place + 1)
    else ofParts negative m place

def ofRat (x : Rat) : Binary F := roundMagnitude (decide (x < 0)) x.abs

def ofInt (n : Int) : Binary F := ofRat n

/-- The quotient of two integers, rounded once; `b` is not zero. A zero dividend takes the sign of
the divisor. -/
def ofRatio (a b : Int) : Binary F :=
  roundMagnitude (decide (a < 0) != decide (b < 0)) ((a : Rat) / b).abs

def convert {G : Format} : Binary F → Binary G
  | .nan => .nan
  | .infinite negative => .infinite negative
  | .finite negative m e _ => roundMagnitude negative ((m : Rat) * (2 : Rat) ^ e)

def toNearestInt (x : Binary F) : Int := nearestEven x.toRat

end Depthwise.Binary
