import Depthwise.Buffer
import Depthwise.Failure
import Depthwise.Shape

namespace Depthwise.Weights

def tileCount (tile channels : Int) : Int := (channels + tile - 1).fdiv tile

/-- Where the layout keeps the weight of channel `c` at tap `k`. -/
def place (kernelSize tile : Int) (c k : Nat) : Int :=
  (c : Int).fdiv tile * tile * kernelSize + (c : Int).fmod tile + k * tile

/-- The axes of the layout: tiles, taps, and the lanes of a tile. -/
structure Layout where
  tiles : Nat
  taps : Nat
  lanes : Nat
  deriving DecidableEq, Repr

namespace Layout

def extent (channels kernelSize tile : Int) (packedSize : Nat) : Nat :=
  Buffer.bound packedSize (tileCount tile channels * kernelSize * tile)

def of? (channels kernelSize tile : Int) (packedSize : Nat) : Option Layout :=
  match Shape.resolve? (extent channels kernelSize tile packedSize)
      [tileCount tile channels, kernelSize, tile] with
  | some [tiles, taps, lanes] => some ⟨tiles, taps, lanes⟩
  | _ => none

variable (l : Layout)

def place (t k j : Nat) : Nat := (t * l.taps + k) * l.lanes + j

/-- Where the weight is kept that comes at `i` when the taps are counted first, then the tiles, then
the lanes. -/
def tapMajor (i : Nat) : Nat :=
  l.place (i % (l.tiles * l.lanes) / l.lanes) (i / (l.tiles * l.lanes)) (i % l.lanes)

end Layout

def channelsOf (tile : Int) (rows t : Nat) : Nat × Nat :=
  let first := Buffer.bound rows (t * tile)
  (first, Buffer.bound rows (t * tile + tile) - first)

def fits (l : Layout) (taps count : Nat) : Bool :=
  (taps = l.taps || taps = 1) && (count ≤ l.lanes || count = 1)

def tileMoves (l : Layout) (tile : Int) (rows taps t : Nat) : List (Nat × Nat) :=
  let (first, count) := channelsOf tile rows t
  (List.range l.taps).flatMap fun k ↦ (List.range (min count l.lanes)).map fun j ↦
    (l.place t k j, (first + j) * taps + Shape.spread taps k)

def move (source : Bytes) (moves : List (Nat × Nat)) (target : Bytes) : Bytes :=
  moves.foldl (fun bytes (place, origin) ↦ bytes.setIfInBounds place (source.getD origin 0)) target

/-- Moves the weights of `channels` channels into the layout. The places of the channels that the
last tile lacks keep what they held. -/
def pack (channels kernelSize tile : Int) (weights packed : Bytes) : Except Error Bytes :=
  if tile = 0 then .error (.fault .divisionByZero)
  else if weights.size < channels * kernelSize then .error .shortBuffer
  else if packed.size < tileCount tile channels * tile * kernelSize then .error .shortBuffer
  else
    match Shape.resolve? (Buffer.bound weights.size (channels * kernelSize)) [channels, kernelSize],
      Layout.of? channels kernelSize tile packed.size with
    | some [rows, taps], some l =>
      let tiles := List.range (tileCount tile channels).toNat
      if tiles.all fun t ↦ fits l taps (channelsOf tile rows t).2 then
        .ok (move weights (tiles.flatMap (tileMoves l tile rows taps)) packed)
      else .error (.fault .unusableValue)
    | _, _ => .error (.fault .unusableValue)

end Depthwise.Weights
