
namespace Depthwise

namespace Binary

structure Format where
  precision : Nat
  minExponent : Int
  maxExponent : Int
  deriving DecidableEq, Repr

def Format.single : Format := ⟨24, -149, 104⟩

def Format.double : Format := ⟨53, -1074, 971⟩

def Format.fractions (F : Format) : Nat := 1 <<< (F.precision - 1)

/-- A significand has all its bits unless the exponent is already the least one, so every finite
magnitude has one representation. -/
def Format.Canonical (F : Format) (significand : Nat) (exponent : Int) : Prop :=
  significand < 2 * F.fractions ∧ F.minExponent ≤ exponent ∧ exponent ≤ F.maxExponent ∧
    (F.fractions ≤ significand ∨ exponent = F.minExponent)

instance (F : Format) (m : Nat) (e : Int) : Decidable (F.Canonical m e) :=
  inferInstanceAs (Decidable (_ ∧ _))

end Binary

/-- A finite value has a sign, a significand and the exponent of its last place. -/
inductive Binary (F : Binary.Format) where
  | nan
  | infinite (negative : Bool)
  | finite (negative : Bool) (significand : Nat) (exponent : Int)
      (canonical : F.Canonical significand exponent)
  deriving DecidableEq, Repr

abbrev Single := Binary .single

abbrev Double := Binary .double

namespace Binary

variable {F : Format}

/-- The rational that a finite value stands for; 0 for the others. -/
def toRat : Binary F → Rat
  | .finite negative m e _ => (if negative then -(m : Rat) else m) * (2 : Rat) ^ e
  | _ => 0

def isNaN : Binary F → Bool
  | .nan => true
  | _ => false

def isFinite : Binary F → Bool
  | .finite .. => true
  | _ => false

def isNegative : Binary F → Bool
  | .nan => false
  | .infinite negative => negative
  | .finite negative .. => negative

end Binary

end Depthwise
