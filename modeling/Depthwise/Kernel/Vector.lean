import Depthwise.Kernel.Call
import Depthwise.Weights

namespace Depthwise.Kernel.Vector

structure Grid (α : Type) where
  rows : Nat
  lanes : Nat
  entry : Nat → Nat → α

def Grid.map {α β : Type} (f : α → β) (g : Grid α) : Grid β :=
  ⟨g.rows, g.lanes, fun k c ↦ f (g.entry k c)⟩

/-- A single row stands for all rows, and a single lane for all lanes. -/
def Grid.spread {α : Type} (g : Grid α) (k c : Nat) : α :=
  g.entry (Shape.spread g.rows k) (Shape.spread g.lanes c)

variable (kernelSize tile : Int) (call : Call)

def usable {α : Type} : Option α → Except Error α
  | some a => .ok a
  | none => .error (.fault .unusableValue)

def word? (n : Int) : Except Error Int32 :=
  if -0x80000000 ≤ n ∧ n < 0x80000000 then .ok (.ofInt n) else .error (.fault .overflow)

def ofByte (b : UInt8) : Int32 := .ofNat b.toNat

/-- The packed weights by tap and lane: the tiles of a tap side by side, cut to the channels. There
must be room for them as words. -/
def weightGrid : Except Error (Grid UInt8) := do
  if tile = 0 then throw (.fault .divisionByZero)
  let packed := call.buffers.packed
  let layout ← usable (Weights.Layout.of? call.channels kernelSize tile packed.size)
  let extent := Weights.Layout.extent call.channels kernelSize tile packed.size
  match Shape.resolve? extent [kernelSize, Weights.tileCount tile call.channels * tile] with
  | some [taps, lanes] =>
    let used := Buffer.bound lanes call.channels
    if extent = 0 ∧ Shape.overlarge 4 [taps, used] then throw (.fault .unusableValue)
    return ⟨taps, used, fun k c ↦ packed.getD (layout.tapMajor (k * lanes + c)) 0⟩
  | _ => throw (.fault .unusableValue)

def centredWeights : Except Error (Grid Int32) := do
  let weights ← weightGrid kernelSize tile call
  let zeroPoint ← word? call.kernelZeroPoint
  return weights.map (ofByte · - zeroPoint)

/-- The samples of a position relative to their zero point. The rows must be equally long. -/
def centredSamples (taps : Array Bytes) : Except Error (Grid Int32) := do
  let rows := taps.map (Buffer.slice · 0 call.channels)
  let first ← usable rows[0]?
  if rows.any (·.size ≠ first.size) then throw (.fault .unusableValue)
  let zeroPoint ← word? call.inputZeroPoint
  return ⟨rows.size, first.size, fun k c ↦ ofByte ((rows.getD k #[]).getD c 0) - zeroPoint⟩

def dot (samples weights : Grid Int32) : Except Error (Array Int32) := do
  let taps ← usable (Shape.common? samples.rows weights.rows)
  let lanes ← usable (Shape.common? samples.lanes weights.lanes)
  return (Array.range lanes).map fun c ↦
    ((List.range taps).map fun k ↦ samples.spread k c * weights.spread k c).foldl (· + ·) 0

def addRows (a b : Array Int32) : Except Error (Array Int32) := do
  let lanes ← usable (Shape.common? a.size b.size)
  return (Array.range lanes).map fun c ↦
    a.getD (Shape.spread a.size c) 0 + b.getD (Shape.spread b.size c) 0

def accumulators (weights : Grid Int32) (taps : Array Bytes) : Except Error (Array Int32) := do
  let sums ← dot (← centredSamples call taps) weights
  addRows (Buffer.slice call.buffers.bias 0 call.channels) sums

/-- Stores a row of codes where it fits between the ends of the output. -/
def storeRow (start : Int) (codes output : Bytes) : Except Error Bytes := do
  let first := Buffer.bound output.size start
  let last := Buffer.bound output.size (start + call.channels)
  let stretched ← usable (Buffer.stretch? codes (last - first))
  return Buffer.overwrite output first stretched.toList

def row (weights : Grid Int32) (x : Nat) : Writing Unit := .single fun output ↦ do
  let accs ← accumulators call weights (call.taps kernelSize x)
  let codes ← FixedPoint.requantizeLanes call.params (accs.map (·.toInt64))
  storeRow call (call.rowStart x) codes output

def run : Outcome :=
  call.writing do
    let weights ← (centredWeights kernelSize tile call : Except Error _)
    Counting.forEach (row kernelSize call weights) 0 call.outputWidth.toNat

end Depthwise.Kernel.Vector
