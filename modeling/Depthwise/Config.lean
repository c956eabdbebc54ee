import Depthwise.Bitwise
import Depthwise.Text.Wording

namespace Depthwise

/-- The shape of a depthwise convolution, the clamp bounds of its output and the number of trials.
A stride of 0 is unset. -/
structure Settings where
  width : Int := 1
  kernelHeight : Int := 1
  kernelWidth : Int := 1
  subsampling : Int := 1
  channels : Int := 1
  tile : Int := 1
  inputStride : Int := 0
  outputStride : Int := 0
  qmin : Int := 0
  qmax : Int := 255
  iterations : Int := 3
  deriving DecidableEq, Repr

inductive Settings.Flaw where
  | width (got : Int)
  | subsampling (got : Int)
  | channels (got : Int)
  | tileZero
  | tileNotPowerOfTwo (got : Int)
  | kernelHeightZero
  | kernelWidthZero
  | inputStride (stride channels : Int)
  | outputStride (stride channels : Int)
  | qmin (got : Int)
  | qmax (got : Int)
  | emptyRange (low high : Int)
  | iterations (got : Int)
  deriving DecidableEq, Repr

namespace Settings

def Flaw.wording : Flaw → List Text.Part
  | .width got => ["width must be >= 1, got ", got]
  | .subsampling got => ["subsampling must be >= 1, got ", got]
  | .channels got => ["channels must be >= 1, got ", got]
  | .tileZero => ["cr must be nonzero"]
  | .tileNotPowerOfTwo got => ["cr must be a power of two, got ", got]
  | .kernelHeightZero => ["kernel_height must be nonzero"]
  | .kernelWidthZero => ["kernel_width must be nonzero"]
  | .inputStride stride count => ["input_stride ", stride, " < channels ", count]
  | .outputStride stride count => ["output_stride ", stride, " < channels ", count]
  | .qmin got => ["qmin out of range: ", got]
  | .qmax got => ["qmax out of range: ", got]
  | .emptyRange low high => ["qmin ", low, " > qmax ", high]
  | .iterations got => ["iterations must be >= 0, got ", got]

variable (s : Settings)

def flaw? : Option Flaw :=
  if s.width < 1 then some (.width s.width)
  else if s.subsampling < 1 then some (.subsampling s.subsampling)
  else if s.channels < 1 then some (.channels s.channels)
  else if s.tile = 0 then some .tileZero
  else if Bitwise.conjunction s.tile (s.tile - 1) ≠ 0 then some (.tileNotPowerOfTwo s.tile)
  else if s.kernelHeight = 0 then some .kernelHeightZero
  else if s.kernelWidth = 0 then some .kernelWidthZero
  else if s.inputStride ≠ 0 ∧ s.inputStride < s.channels then
    some (.inputStride s.inputStride s.channels)
  else if s.outputStride ≠ 0 ∧ s.outputStride < s.channels then
    some (.outputStride s.outputStride s.channels)
  else if s.qmin < 0 ∨ 255 < s.qmin then some (.qmin s.qmin)
  else if s.qmax < 0 ∨ 255 < s.qmax then some (.qmax s.qmax)
  else if s.qmax < s.qmin then some (.emptyRange s.qmin s.qmax)
  else if s.iterations < 0 then some (.iterations s.iterations)
  else none

def packedChannels : Int := Bitwise.conjunction (s.channels + s.tile - 1) (~~~(s.tile - 1))

def kernelSize : Int := s.kernelHeight * s.kernelWidth

def effectiveInputStride : Int := if s.inputStride = 0 then s.channels else s.inputStride

def effectiveOutputStride : Int := if s.outputStride = 0 then s.channels else s.outputStride

/-- Table entries between consecutive output positions. -/
def tapStep : Int := s.kernelHeight * s.subsampling

def tableSize : Int := s.kernelSize + (s.width - 1) * s.tapStep

def guardSize : Int := 8

def entrySize : Int := 8

def inputSize : Int := (s.tableSize - 1) * s.effectiveInputStride + s.channels + guardSize

def outputSize : Int := (s.width - 1) * s.effectiveOutputStride + s.channels

/-- The distance, in bytes, between the table entries of consecutive output positions. -/
def inputIncrement : Int := s.tapStep * entrySize

def outputIncrement : Int := s.effectiveOutputStride - s.channels

def description : List Text.Part := [
  "width=", s.width, " kernel=", s.kernelHeight, "x", s.kernelWidth,
  " subsampling=", s.subsampling, " channels=", s.channels, " cr=", s.tile,
  " input_stride=", s.effectiveInputStride, " output_stride=", s.effectiveOutputStride,
  " q=[", s.qmin, ", ", s.qmax, "]"]

def describe : Except Fault String := Text.write s.description

end Settings

structure Config extends Settings where
  sound : toSettings.flaw? = none
  deriving DecidableEq

namespace Config

def ofSettings (s : Settings) : Except Settings.Flaw Config :=
  match h : s.flaw? with
  | none => .ok ⟨s, h⟩
  | some flaw => .error flaw

def revise (c : Config) (change : Settings → Settings) : Except Settings.Flaw Config :=
  ofSettings (change c.toSettings)

end Config

end Depthwise
