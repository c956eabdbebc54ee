import Depthwise.Buffer
import Depthwise.Failure

namespace Depthwise

structure View where
  start : Nat
  stop : Nat
  deriving DecidableEq, Repr

namespace View

def read (v : View) (input : Bytes) : Bytes := input.extract v.start v.stop

end View

structure Buffers where
  input : Bytes
  packed : Bytes
  bias : Array Int32
  output : Bytes
  deriving DecidableEq, Repr

structure Trial where
  buffers : Buffers
  weights : Bytes
  table : Array View
  deriving DecidableEq, Repr

def inputZeroPoint : Int := 127

def kernelZeroPoint : Int := 127

namespace Trial

def largestBuffer : Int := 0x7fffffffffffffff

/-- The number of elements of a buffer, each `width` bytes wide. A negative one is refused, and one
that takes too many bytes. -/
def sizeOf (width : Nat) (count : Int) : Except Error Nat :=
  if count < 0 ∨ largestBuffer < count * width then .error (.fault .unusableValue)
  else .ok count.toNat

end Trial

end Depthwise
