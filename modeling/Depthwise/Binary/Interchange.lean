import Depthwise.Binary.Round

namespace Depthwise.Binary

variable {F : Format}

def Format.specialField (F : Format) : Nat := (F.maxExponent - F.minExponent + 2).toNat

def Format.signBit (F : Format) : Nat := F.precision - 1 + (F.specialField.log2 + 1)

def encodeMagnitude : Binary F → Nat
  | .nan => F.specialField * F.fractions + F.fractions / 2
  | .infinite _ => F.specialField * F.fractions
  | .finite _ m e _ => m + F.fractions * (e - F.minExponent).toNat

/-- The bits of a value. The leading bit of a full significand carries into the exponent field. -/
def encode (x : Binary F) : Nat :=
  x.encodeMagnitude + if x.isNegative then 1 <<< F.signBit else 0

def decode (bits : Nat) : Binary F :=
  let negative := bits >>> F.signBit % 2 = 1
  let field := bits / F.fractions % (1 <<< (F.specialField.log2 + 1))
  let fraction := bits % F.fractions
  if field = F.specialField then if fraction = 0 then .infinite negative else .nan
  else if field = 0 then ofParts negative fraction F.minExponent
  else ofParts negative (F.fractions + fraction) (F.minExponent + (field - 1 : Nat))

end Depthwise.Binary
