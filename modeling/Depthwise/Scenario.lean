import Depthwise.Buffer
import Depthwise.Trial.Draw

namespace Depthwise

namespace Config

def chance (p : Double) : Random.Draw Bool := return (← Random.unit).lt p

def drawStride (channels : Int) : Random.Draw Int := do
  if ← chance (.ofRat 0.3) then return channels + (← Random.between 1 8) else return 0

def drawBounds : Random.Draw (Int × Int) := do
  if ← chance (.ofRat 0.2) then
    let qmin ← Random.between 0 64
    let qmax ← Random.between 192 256
    return (qmin, qmax)
  else return (0, 255)

def drawVariation (base : Config) : Drawing Config := do
  let channels ← Random.between 1 33
  let inputStride ← drawStride channels
  let outputStride ← drawStride channels
  let (qmin, qmax) ← drawBounds
  let width ← Random.between 1 9
  let subsampling ← Random.between 1 3
  base.revise fun s ↦
    { s with width, subsampling, channels, inputStride, outputStride, qmin, qmax }

def drawVariations (base : Config) (count : Nat) : Drawing (List Config) :=
  (List.range count).mapM fun _ ↦ base.drawVariation

end Config

inductive Scenario where
  | minimal
  | unaligned
  | strided
  | restricted
  | random
  deriving DecidableEq, Repr

namespace Scenario

def all : List Scenario := [minimal, unaligned, strided, restricted, random]

def name : Scenario → String
  | minimal => "Minimal"
  | unaligned => "Unaligned Channels"
  | strided => "Strided Rows"
  | restricted => "Restricted Range"
  | random => "Constrained Random"

def description : Scenario → String
  | minimal => "One output position and one channel"
  | unaligned => "Channel counts that leave the last tile partially filled"
  | strided => "Input and output strides larger than the channel count"
  | restricted => "Saturation at qmin/qmax on both reference and kernel side"
  | random => "Random shapes within the kernel's tap count and tile size"

variable (base : Config)

/-- Channel counts below, at and above whole tiles, each once. -/
def unalignedCounts (tile : Int) : List Int :=
  let counts := [tile, tile + 1, 2 * tile - 1, 2 * tile + 1, 3 * tile]
  ((if 1 < tile then [1, tile - 1] else []) ++ counts).eraseDups

def minimalConfigs (count : Int) : Except Settings.Flaw (List Config) := do
  let config ← base.revise fun s ↦ { s with width := 1, channels := 1, subsampling := 1 }
  return Buffer.front [config] count

def unalignedConfigs (count : Int) : Except Settings.Flaw (List Config) :=
  (Buffer.front (unalignedCounts base.tile) count).mapM fun channels ↦
    base.revise fun s ↦ { s with channels, width := 3 }

def stridedConfigs (count : Int) : Except Settings.Flaw (List Config) := do
  let channels := max base.channels (base.tile + 3)
  let wide ← base.revise fun s ↦ { s with channels, width := 5 }
  let configs ← [
      fun s : Settings ↦ { s with inputStride := channels + 5 },
      fun s ↦ { s with outputStride := channels + 7 },
      fun s ↦ { s with inputStride := 2 * channels + 1, outputStride := channels + 3 },
      fun s ↦ { s with subsampling := 2, inputStride := channels + 1 }].mapM wide.revise
  return Buffer.front configs count

def restrictedConfigs (count : Int) : Except Settings.Flaw (List Config) := do
  let channels := max base.channels (base.tile + 1)
  let wide ← base.revise fun s ↦ { s with channels, width := 4 }
  let configs ← [((0 : Int), (127 : Int)), (128, 255), (64, 191)].mapM fun (qmin, qmax) ↦
    wide.revise fun s ↦ { s with qmin, qmax }
  return Buffer.front configs count

def configs (scenario : Scenario) (count : Int) : Drawing (List Config) :=
  match scenario with
  | minimal => minimalConfigs base count
  | unaligned => unalignedConfigs base count
  | strided => stridedConfigs base count
  | restricted => restrictedConfigs base count
  | random => base.drawVariations count.toNat

end Scenario

end Depthwise
