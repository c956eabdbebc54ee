import Depthwise.Kernel.Call
import Depthwise.Weights

namespace Depthwise.Kernel.Scalar

variable (kernelSize tile : Int) (call : Call)

def inBounds {α : Type} : Option α → Except Error α
  | some a => .ok a
  | none => .error (.fault .indexOutOfRange)

def term (taps : Array Bytes) (c k : Nat) : Except Error Int := do
  let row ← inBounds taps[k]?
  let input ← inBounds row[c]?
  let weight ← inBounds (Buffer.read? call.buffers.packed (Weights.place kernelSize tile c k))
  return ((input.toNat : Int) - call.inputZeroPoint) *
    ((weight.toNat : Int) - call.kernelZeroPoint)

def addTerms (next : Nat → Except Error Int) (k : Nat) : Nat → Int → Except Error Int
  | 0, sum => .ok sum
  | count + 1, sum => do addTerms next (k + 1) count (sum + (← next k))

def accumulate (taps : Array Bytes) (c : Nat) : Except Error Int := do
  if tile = 0 then throw (.fault .divisionByZero)
  let bias ← inBounds call.buffers.bias[c]?
  addTerms (term kernelSize tile call taps c) 0 kernelSize.toNat bias.toInt

/-- Stores a code as one byte. The place is looked at before the code. -/
def storeByte (place code : Int) (output : Bytes) : Except Error Bytes :=
  match Buffer.position? output.size place with
  | none => .error (.fault .indexOutOfRange)
  | some i =>
    if 0 ≤ code ∧ code ≤ 255 then .ok (output.setIfInBounds i (UInt8.ofNat code.toNat))
    else .error (.fault .overflow)

def cell (taps : Array Bytes) (x c : Nat) (output : Bytes) : Except Error Bytes := do
  let acc ← accumulate kernelSize tile call taps c
  let code ← FixedPoint.requantize? call.params acc
  storeByte (call.rowStart x + c) code output

def row (x : Nat) : Writing Unit :=
  let taps := call.taps kernelSize x
  Counting.forEach (fun c ↦ .single (cell kernelSize tile call taps x c)) 0 call.channels.toNat

def run : Outcome :=
  call.writing (Counting.forEach (row kernelSize tile call) 0 call.outputWidth.toNat)

end Depthwise.Kernel.Scalar
