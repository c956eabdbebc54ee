import Depthwise.Affine
import Depthwise.Failure

namespace Depthwise

abbrev Collaboration (σ : Type) := ExceptT Error (StateM σ)

abbrev ParamsRoutine (σ : Type) := Double → Int → Int → Int → Collaboration σ FixedPoint.Params

def FixedPoint.Path.routine (path : FixedPoint.Path) (σ : Type) : ParamsRoutine σ :=
  fun scale zeroPoint qmin qmax ↦
    (FixedPoint.derive path scale zeroPoint qmin qmax : Except FixedPoint.Rejection _)

structure Parameters where
  output : Affine
  requantization : FixedPoint.Params
  scalarRequantization : FixedPoint.Params
  deriving DecidableEq, Repr

/-- Asks both routines for the parameters of some accumulators, the vector routine first. -/
def Parameters.derive {σ : Type} (vector scalar : ParamsRoutine σ) (accumulators : List Int)
    (qmin qmax : Int) : Collaboration σ Parameters := do
  let output ← Affine.ofAccumulators accumulators
  let scale := output.requantizationScale
  let requantization ← vector scale output.zeroPoint qmin qmax
  let scalarRequantization ← scalar scale output.zeroPoint qmin qmax
  return ⟨output, requantization, scalarRequantization⟩

end Depthwise
