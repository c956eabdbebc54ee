import Depthwise.Counting
import Depthwise.Shape
import Depthwise.Trial.Buffers

namespace Depthwise.Convolution

variable (s : Settings) (t : Trial)

/-- The samples of one tap: the front of a view, where a single byte stands for all channels. -/
def sample (x k : Nat) : Except Error Bytes :=
  match Buffer.read? t.table (x * s.tapStep + k) with
  | none => .error (.fault .indexOutOfRange)
  | some view =>
    match Buffer.stretch? ((view.read t.buffers.input).extract 0 s.channels.toNat)
        s.channels.toNat with
    | none => .error (.fault .unusableValue)
    | some row => .ok row

def sampleCount : Int := s.width * s.kernelSize * s.channels

def gather : Except Error (List (List Bytes)) := do
  let _ ← Trial.sizeOf 1 (sampleCount s)
  Counting.collect (fun x ↦ Counting.collect (sample s t x) 0 s.kernelSize.toNat) 0 s.width.toNat

/-- Whether the samples have room as 64-bit words. -/
def Roomy : Prop := 8 * sampleCount s ≤ Trial.largestBuffer

instance : Decidable (Roomy s) := inferInstanceAs (Decidable (_ ≤ _))

def product (input weight : UInt8) : Int :=
  ((input.toNat : Int) - inputZeroPoint) * ((weight.toNat : Int) - kernelZeroPoint)

def tapSum (weights : Bytes) (kernelSize : Nat) (taps : List Bytes) (c : Nat) : Int :=
  (taps.zipIdx.map fun (row, k) ↦
    product (row.getD c 0) (weights.getD (c * kernelSize + k) 0)).foldr (· + ·) 0

/-- The accumulators, by output position and channel, narrowed to 32 bits. -/
def accumulators : Except Error (List (List Int32)) := do
  let samples ← gather s t
  if ¬ Roomy s then throw (.fault .oversized)
  let channels := s.channels.toNat
  let kernelSize := s.kernelSize.toNat
  let bias := t.buffers.bias.extract 0 channels
  if t.weights.size ≠ channels * kernelSize then throw (.fault .shapeMismatch)
  match Shape.common? channels bias.size with
  | none => throw (.fault .shapeMismatch)
  | some lanes =>
    return samples.map fun taps ↦ (List.range lanes).map fun c ↦
      let start := bias.getD (Shape.spread bias.size c) 0
      Int32.ofInt (tapSum t.weights kernelSize taps c + start.toInt)

end Depthwise.Convolution
