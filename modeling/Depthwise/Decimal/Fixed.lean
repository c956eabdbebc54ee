import Depthwise.Decimal.Shortest

namespace Depthwise.Decimal

open Binary (Format)

variable {F : Format}

def insertPoint (places n : Nat) : List Char :=
  let digits := padLeft (places + 1) (Nat.toDigits 10 n)
  let whole := digits.length - places
  if places = 0 then digits else digits.take whole ++ '.' :: digits.drop whole

def fixed (places : Nat) : Binary F → String
  | .nan => Style.plain.notANumber
  | .infinite negative => if negative then "-" ++ Style.plain.infinity else Style.plain.infinity
  | .finite negative m e _ =>
    let scaled := m * (2 : Rat) ^ e * (10 : Rat) ^ places
    let text := insertPoint places (Binary.nearestEven scaled).toNat
    String.ofList (if negative then '-' :: text else text)

end Depthwise.Decimal
