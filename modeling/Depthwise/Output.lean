import Depthwise.Failure
import Depthwise.Buffer

namespace Depthwise.Output

variable (s : Settings)

def rowStart (x : Nat) : Int := x * s.effectiveOutputStride

def rows (output : Bytes) : Except Error (List (List UInt8)) :=
  (List.range s.width.toNat).mapM fun x ↦
    let row := Buffer.slice output (rowStart s x) (rowStart s x + s.channels)
    match Buffer.stretch? row s.channels.toNat with
    | some codes => .ok codes.toList
    | none => .error (.fault .unusableValue)

def gap (x : Nat) : List Int :=
  (List.range (s.effectiveOutputStride - s.channels).toNat).map fun (i : Nat) ↦
    rowStart s x + s.channels + i

/-- All places of the padding, row by row. The last row has none behind it. -/
def paddingPlaces : List Int := (List.range (s.width - 1).toNat).flatMap (gap s)

def readByte (output : Bytes) (place : Int) : Except Error UInt8 :=
  match Buffer.read? output place with
  | some b => .ok b
  | none => .error (.fault .indexOutOfRange)

def padding (output : Bytes) : Except Error (List (Int × UInt8)) :=
  (paddingPlaces s).mapM fun place ↦ return (place, ← readByte output place)

def firstChanged (before : List (Int × UInt8)) (output : Bytes) : Except Error (Option Int) :=
  match before with
  | [] => .ok none
  | (place, value) :: rest => do
    if (← readByte output place) ≠ value then return some place
    else firstChanged rest output

end Depthwise.Output
