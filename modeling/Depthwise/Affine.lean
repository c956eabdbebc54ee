import Depthwise.Binary.Arithmetic
import Depthwise.Binary.Bounded

namespace Depthwise

structure Affine where
  accumulatorsMin : Int
  accumulatorsMax : Int
  scale : Double
  zeroPoint : Int
  deriving DecidableEq, Repr

namespace Affine

def scaleFloor : Double := .ofRat 1.00001

def tolerance : Double := .ofRat 0.6

def scaleOfRange (range : Int) : Double :=
  if 256 ≤ range then Binary.ofInt range / Binary.ofInt 255 else scaleFloor

/-- The code that stands for zero: the one that puts the middle of the range at 127.5. -/
def zeroPointOf (low high : Int) (scale : Double) : Int :=
  let middle : Double := .ofRat 0.5 * .ofInt (low + high) / scale
  min (max (Binary.ofRat 127.5 - middle : Double).toNearestInt 0) 255

def ofRange (low high : Int) : Affine :=
  let scale := scaleOfRange (high - low)
  ⟨low, high, scale, zeroPointOf low high scale⟩

def ofAccumulators : List Int → Except Fault Affine
  | [] => .error .unusableValue
  | a :: rest => .ok (ofRange (rest.foldl min a) (rest.foldl max a))

variable (q : Affine)

def range : Int := q.accumulatorsMax - q.accumulatorsMin

def requantizationScale : Double :=
  ((.ofInt 1 : Single) / (q.scale.convert : Single)).convert

/-- An accumulator rescaled and clamped, relative to the zero point. -/
def expected (qmin qmax : Int) (acc : Int) : Double :=
  ((.ofInt acc : Double) / q.scale).clip
    (.ofInt qmin - .ofInt q.zeroPoint) (.ofInt qmax - .ofInt q.zeroPoint)

def rescale (qmin qmax : Int) (accumulators : List Int) : Except Fault (List Double) := do
  let _ ← (Binary.ofInt? q.zeroPoint : Except Fault Double)
  return accumulators.map (q.expected qmin qmax)

end Affine

end Depthwise
