import Depthwise.Contrast
import Depthwise.Convolution
import Depthwise.Counting
import Depthwise.Output
import Depthwise.Session.State

namespace Depthwise.Session

open Report (Value)

variable {σ : Type} (bench : Bench σ) (config : Config)

def values (bytes : Bytes) : List Int := bytes.toList.map fun b ↦ (b.toNat : Int)

def originOf (description : String) (index seed : Int) : List (String × Value) :=
  [("config", .text description), ("trial", .int index), ("seed", .int seed)]

def kernelCall (t : Trial) (params : FixedPoint.Params) : Kernel.Call where
  channels := config.channels
  outputWidth := config.width
  table := t.table
  buffers := t.buffers
  inputIncrement := config.inputIncrement
  outputIncrement := config.outputIncrement
  inputZeroPoint := inputZeroPoint
  kernelZeroPoint := kernelZeroPoint
  params := params

def runKernel (t : Trial) (params : FixedPoint.Params) : Run σ Buffers := do
  let outcome ← call (liftM (bench.kernel.run (kernelCall config t params)))
  match outcome.error? with
  | some e => throw e
  | none => return outcome.buffers

def firstExceeding (expected : List (List Double)) (observed : List (List Int)) :
    Option (Nat × Nat × Double × Int) :=
  ((expected.zip observed).zipIdx.flatMap fun ((row, codes), x) ↦
    (row.zip codes).zipIdx.map fun ((e, o), c) ↦ (x, c, e, o)).find? fun (_, _, e, o) ↦
      Affine.tolerance.lt (e - .ofInt o).abs

def compare (index seed : Int) (padding : List (Int × UInt8)) (output : Affine)
    (accumulators : List (List Int)) (written : Bytes) : Run σ Metrics := do
  let expected := accumulators.map (·.map (output.expected config.qmin config.qmax))
  let rows ← Output.rows config.toSettings written
  let observed := rows.map (·.map fun code ↦ (code.toNat : Int) - output.zeroPoint)
  let metrics ← Metrics.compute expected observed Affine.tolerance output.scale output.zeroPoint
  let description ← config.describe
  keep (History.record metrics (originOf description index seed))
  if 0 < metrics.numFailures then
    match firstExceeding expected observed with
    | some (x, c, e, o) =>
      throw (Failure.raise ⟨.toleranceExceeded x c e o Affine.tolerance, some index, some seed⟩)
    | none => throw (.fault .indexOutOfRange)
  match ← Output.firstChanged padding written with
  | some place => throw (Failure.raise ⟨.outputCorrupted place, some index, some seed⟩)
  | none => return metrics

def examine (index : Int) (t : Trial) : Run σ Metrics := do
  let seed := (← get).seed
  Contrast.checkBuffer "input" (values t.buffers.input) (some index) (some seed)
  Contrast.checkBuffer "kernel" (values t.weights) (some index) (some seed)
  let padding ← Output.padding config.toSettings t.buffers.output
  let packed ← call (bench.pack config.channels config.kernelSize config.tile t.weights
    t.buffers.packed)
  let t := { t with buffers := { t.buffers with packed } }
  let accumulators ← Convolution.accumulators config.toSettings t
  let accumulators := accumulators.map (·.map (·.toInt))
  Contrast.checkRange accumulators.flatten (some index) (some seed)
  let params ← call (Parameters.derive bench.vectorParams bench.scalarParams accumulators.flatten
    config.qmin config.qmax)
  let left ← runKernel bench config t params.requantization
  compare config index seed padding params.output accumulators left.output

def runTrial (index : Int) : Run σ Metrics := do
  let t ← draw (Trial.draw config.toSettings bench.script)
  examine bench config index t

def test : Run σ (List Metrics) :=
  Counting.collect (fun i ↦ runTrial bench config i) 0 config.iterations.toNat

end Depthwise.Session
