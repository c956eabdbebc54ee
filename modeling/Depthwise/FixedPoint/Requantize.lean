import Depthwise.Bitwise
import Depthwise.Fault
import Depthwise.FixedPoint.Params

namespace Depthwise.FixedPoint

def half : Int := 0x40000000

def scaledProduct (p : Params) (acc : Int) : Int := (acc * p.multiplier + half) >>> (31 : Nat)

/-- A right shift that rounds by comparing the bits shifted out with a threshold; for a negative
number these bits are taken one lower. -/
def roundingShift (p : Params) (q : Int) : Int :=
  let remainder := Bitwise.conjunction q p.remainderMask - if q < 0 then 1 else 0
  q >>> p.shift.toNat + if p.remainderThreshold < remainder then 1 else 0

/-- The output code of an accumulator: clamped first, moved by the zero point afterwards. -/
def requantize (p : Params) (acc : Int) : Int :=
  let n := roundingShift p (scaledProduct p acc)
  min (max n p.minLessZeroPoint) p.maxLessZeroPoint + p.zeroPoint

/-- `requantize`, for parameters of any origin: a number cannot be shifted by a negative amount. -/
def requantize? (p : Params) (acc : Int) : Except Fault Int :=
  if p.shift < 0 then .error .unusableValue else .ok (requantize p acc)

def word? (n : Int) : Except Fault Int64 :=
  if -0x8000000000000000 ≤ n ∧ n < 0x8000000000000000 then .ok (.ofInt n) else .error .overflow

/-- An arithmetic shift to the right; an amount outside the word's width leaves only the sign. -/
def shiftWord (a : Int64) (amount : Int64) : Int64 :=
  if 0 ≤ amount ∧ amount < 64 then a >>> amount else if a < 0 then -1 else 0

def lowerBound? (n : Int) : Except Fault (Option Int64) :=
  if n ≤ -0x8000000000000000 then .ok none else (word? n).map some

def upperBound? (n : Int) : Except Fault (Option Int64) :=
  if 0x7fffffffffffffff ≤ n then .ok none else (word? n).map some

/-- Parameters whose numbers fit in words. The threshold is only compared with and need not fit. -/
structure WordParams where
  multiplier : Int64
  shift : Int64
  remainderMask : Int64
  remainderThreshold : Int
  zeroPoint : Int64
  qmin? : Option Int64
  qmax? : Option Int64

def WordParams.ofParams (p : Params) : Except Fault WordParams := do
  let multiplier ← word? p.multiplier
  let mask ← word? p.remainderMask
  let shift ← word? p.shift
  let zeroPoint ← word? p.zeroPoint
  let qmin? ← lowerBound? p.qmin
  let qmax? ← upperBound? p.qmax
  return ⟨multiplier, shift, mask, p.remainderThreshold, zeroPoint, qmin?, qmax?⟩

/-- The word that one lane computes before it is narrowed: moved by the zero point first, clamped
afterwards, the upper bound last. -/
def WordParams.lane (p : WordParams) (acc : Int64) : Int64 :=
  let product := acc * p.multiplier
  let q := (product + 0x40000000) >>> 31
  let remainder := (q &&& p.remainderMask) - if q < 0 then 1 else 0
  let n := shiftWord q p.shift + if p.remainderThreshold < remainder.toInt then 1 else 0
  let v := n + p.zeroPoint
  let raised := (p.qmin?.map fun low ↦ if v < low then low else v).getD v
  (p.qmax?.map fun high ↦ if high < raised then high else raised).getD raised

def WordParams.store (p : WordParams) (acc : Int64) : UInt8 := UInt8.ofInt (p.lane acc).toInt

def requantizeLanes (p : Params) (accs : Array Int64) : Except Fault (Array UInt8) :=
  (WordParams.ofParams p).map fun w ↦ accs.map w.store

end Depthwise.FixedPoint
