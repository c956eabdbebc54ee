import Depthwise.Counting
import Depthwise.Failure
import Depthwise.FixedPoint.Requantize
import Depthwise.Trial.Buffers

namespace Depthwise

namespace Kernel

/-- A kernel steps through the table by `inputIncrement` bytes per output position, and through the
output by the channels and `outputIncrement`. -/
structure Call where
  channels : Int
  outputWidth : Int
  table : Array View
  buffers : Buffers
  inputIncrement : Int
  outputIncrement : Int
  inputZeroPoint : Int
  kernelZeroPoint : Int
  params : FixedPoint.Params
  deriving DecidableEq, Repr

/-- The buffers after a call, and the error that ended it early, if any. -/
structure Outcome where
  buffers : Buffers
  error? : Option Error := none
  deriving DecidableEq, Repr

namespace Call

variable (call : Call)

def taps (kernelSize : Int) (x : Nat) : Array Bytes :=
  let start := x * call.inputIncrement.fdiv Settings.entrySize
  (Buffer.slice call.table start (start + kernelSize)).map (·.read call.buffers.input)

def rowStart (x : Nat) : Int := x * (call.channels + call.outputIncrement)

def wrote (output : Bytes) (error? : Option Error) : Outcome :=
  ⟨{ call.buffers with output }, error?⟩

end Call

abbrev Writing := ExceptT Error (StateM Bytes)

namespace Writing

def single (write : Bytes → Except Error Bytes) : Writing Unit := do
  set (← (write (← get) : Except Error Bytes))

end Writing

def Call.writing (call : Call) (w : Writing Unit) : Outcome :=
  match w.run.run call.buffers.output with
  | (.ok (), output) => call.wrote output none
  | (.error e, output) => call.wrote output (some e)

end Kernel

/-- A kernel under test: its name and what a call does, with an inner state of its own. -/
structure Kernel (σ : Type) where
  name : String
  run : Kernel.Call → StateM σ Kernel.Outcome

end Depthwise
