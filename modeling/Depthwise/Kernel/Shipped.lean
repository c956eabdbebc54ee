import Depthwise.Kernel.Scalar
import Depthwise.Kernel.Vector

namespace Depthwise.Kernel

inductive Family where
  | scalar
  | vectorized
  deriving DecidableEq, Repr

namespace Family

def name : Family → String
  | .scalar => "scalar"
  | .vectorized => "vectorized"

def run : Family → Int → Int → Call → Outcome
  | .scalar => Scalar.run
  | .vectorized => Vector.run

def kernelName (family : Family) (kernelSize tile : Int) : List Text.Part :=
  ["q8dw_ukernel_", kernelSize, "c", tile, "__" ++ family.name]

def kernel (family : Family) (σ : Type) (kernelSize tile : Int) : Kernel σ where
  name := Text.plain (family.kernelName kernelSize tile)
  run call := pure (family.run kernelSize tile call)

def build (family : Family) (σ : Type) (kernelSize tile : Int) : Except Fault (Kernel σ) := do
  let _ ← Text.write (family.kernelName kernelSize tile)
  return family.kernel σ kernelSize tile

end Family

end Depthwise.Kernel
