import Depthwise.Random.Stream
import Depthwise.Trial.Buffers

namespace Depthwise

abbrev Drawing := ExceptT Error Random.Draw

inductive RowOrder where
  | identity
  | reverse
  deriving DecidableEq, Repr

def RowOrder.numbers (count : Nat) : RowOrder → Array Nat
  | .identity => Array.range count
  | .reverse => (Array.range count).reverse

/-- Buffers with given contents, which are not drawn. A buffer is given for the size it needs. -/
structure Script where
  input? : Option (Int → Except Error Bytes) := none
  weights? : Option (Int → Except Error Bytes) := none
  bias? : Option (Int → Except Error (Array Int32)) := none
  output? : Option (Int → Except Error Bytes) := none
  order? : Option RowOrder := none

namespace Trial

variable (s : Settings)

def drawBytes (size : Int) : Drawing Bytes := do
  let count ← sizeOf 1 size
  Random.bytes count

def biasLimit : Int := 10000

def drawBias (size : Int) : Drawing (Array Int32) := do
  let count ← sizeOf 4 size
  let values ← (List.range count).mapM fun _ ↦
    (Random.between (-biasLimit) (biasLimit + 1) : Drawing Int)
  return (values.map Int32.ofInt).toArray

/-- The views of the input rows, in the order of the rows: each runs from its row to the end. -/
def rowViews (inputSize : Nat) : Array View :=
  (Array.range s.tableSize.toNat).map fun (i : Nat) ↦
    ⟨(Settings.guardSize + i * s.effectiveInputStride).toNat, inputSize⟩

def arrange (views : Array View) (order : Array Nat) : Array View := order.filterMap (views[·]?)

def drawTable (order? : Option RowOrder) (inputSize : Nat) : Random.Draw (Array View) := do
  let views := rowViews s inputSize
  let order ← match order? with
    | some order => pure (order.numbers views.size)
    | none => Random.permutation views.size
  return arrange views order

def given {α : Type} (contents? : Option (Int → Except Error (Array α)))
    (drawn : Int → Drawing (Array α)) (size : Int) : Drawing (Array α) :=
  match contents? with
  | some contents => (contents size : Except Error _)
  | none => drawn size

def draw (script : Script) : Drawing Trial := do
  let input ← given script.input? drawBytes s.inputSize
  let weights ← given script.weights? drawBytes (s.channels * s.kernelSize)
  let packedSize ← sizeOf 1 (s.kernelSize * s.packedChannels)
  let bias ← given script.bias? drawBias s.packedChannels
  let table ← drawTable s script.order? input.size
  let output ← given script.output? drawBytes s.outputSize
  let packed := Array.replicate packedSize (UInt8.ofNat kernelZeroPoint.toNat)
  return ⟨⟨input, packed, bias, output⟩, weights, table⟩

end Trial

end Depthwise
