import Depthwise.Binary.Arithmetic
import Depthwise.Decimal.Shortest
import Depthwise.Text.Wording

namespace Depthwise.FixedPoint

inductive Path where
  | vector
  | scalar
  deriving DecidableEq, Repr

def Path.name : Path → String
  | .vector => "vector"
  | .scalar => "scalar"

structure Params where
  multiplier : Int
  shift : Int
  remainderMask : Int
  remainderThreshold : Int
  zeroPoint : Int
  qmin : Int
  qmax : Int
  path : Path
  deriving DecidableEq, Repr

namespace Params

variable (p : Params)

def minLessZeroPoint : Int := p.qmin - p.zeroPoint

def maxLessZeroPoint : Int := p.qmax - p.zeroPoint

end Params

inductive Rejection where
  | zeroPoint (got : Int)
  | clampBounds (qmin qmax : Int)
  | scaleTooSmall (scale : Double)
  | scaleTooLarge (scale : Double)
  | shift (got : Int)
  deriving DecidableEq, Repr

def Rejection.wording : Rejection → List Text.Part
  | .zeroPoint got => ["zero point out of range: ", got]
  | .clampBounds qmin qmax => ["invalid clamp bounds [", qmin, ", ", qmax, "]"]
  | .scaleTooSmall scale => ["scale " ++ Decimal.Style.plain.render scale ++ " below 2^-32"]
  | .scaleTooLarge scale => ["scale " ++ Decimal.Style.plain.render scale ++ " must be below 1.0"]
  | .shift got => ["shift ", got, " out of range"]

def leastScale : Single := .ofRat (1 / 0x100000000)

/-- The significand of a scale, moved up so that its leading bit has weight `2 ^ 30`. -/
def multiplierOf : Single → Int
  | .finite _ m _ _ => (m : Int) * 128
  | _ => 0

/-- The shift that the exponent of a scale asks for after a division by `2 ^ 31`. -/
def shiftOf : Single → Int
  | .finite _ _ e _ => -24 - e
  | _ => 0

def decompose (scale : Single) : Except Rejection (Int × Int) :=
  if !leastScale.le scale then .error (.scaleTooSmall scale.convert)
  else if !scale.lt (.ofInt 1) then .error (.scaleTooLarge scale.convert)
  else
    let shift := shiftOf scale
    if 0 ≤ shift ∧ shift < 32 then .ok (multiplierOf scale, shift) else .error (.shift shift)

def derive (path : Path) (scale : Double) (zeroPoint qmin qmax : Int) :
    Except Rejection Params :=
  if ¬(0 ≤ zeroPoint ∧ zeroPoint ≤ 255) then .error (.zeroPoint zeroPoint)
  else if ¬(0 ≤ qmin ∧ qmin ≤ qmax ∧ qmax ≤ 255) then .error (.clampBounds qmin qmax)
  else do
    let (multiplier, shift) ← decompose scale.convert
    let mask := ((1 <<< shift.toNat : Nat) : Int) - 1
    return ⟨multiplier, shift, mask, mask / 2, zeroPoint, qmin, qmax, path⟩

end Depthwise.FixedPoint
