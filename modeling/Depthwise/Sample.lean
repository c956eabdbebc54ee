import Depthwise.Binary.Arithmetic

namespace Depthwise.Sample

def runningSum : List Double → Double
  | [] => .zero false
  | x :: rest => rest.foldl (· + ·) x

/-- The sum of eight interleaved runs over the whole blocks of eight, then of what is left. -/
def blockSum (xs : Array Double) : Double :=
  let blocks := xs.size / 8
  let lane (j : Nat) : Double :=
    runningSum ((List.range blocks).map fun i ↦ xs.getD (8 * i + j) .nan)
  let whole :=
    ((lane 0 + lane 1) + (lane 2 + lane 3)) + ((lane 4 + lane 5) + (lane 6 + lane 7))
  (xs.toList.drop (8 * blocks)).foldl (· + ·) whole

def pairwiseSum : Nat → List Double → Double
  | 0, xs => blockSum xs.toArray
  | depth + 1, xs =>
    if xs.length < 8 then runningSum xs
    else if xs.length ≤ 128 then blockSum xs.toArray
    else
      let first := xs.length / 2 / 8 * 8
      pairwiseSum depth (xs.take first) + pairwiseSum depth (xs.drop first)

/-- The sum, which starts at zero: a sum of negative zeros is the positive one. -/
def sum (xs : List Double) : Double := .zero false + pairwiseSum xs.length xs

def mean (xs : List Double) : Double := sum xs / .ofInt xs.length

def deviation (xs : List Double) : Double :=
  let centre := mean xs
  let squares := xs.map fun x ↦ (x - centre) * (x - centre)
  (sum squares / .ofInt xs.length).sqrt

/-- The first of the two if it is larger or not a number, and the second otherwise. -/
def larger (x y : Double) : Double := if x.isNaN || y.lt x then x else y

def smaller (x y : Double) : Double := if x.isNaN || x.lt y then x else y

def maximum : List Double → Double
  | [] => .nan
  | x :: rest => rest.foldl larger x

def minimum : List Double → Double
  | [] => .nan
  | x :: rest => rest.foldl smaller x

/-- The point `t` of the way from `x` to `y`, computed from the nearer end. -/
def interpolate (x y t : Double) : Double :=
  let d := y - x
  if t.lt (.ofRat 0.5) then x + d * t else y - d * (.ofInt 1 - t)

/-- The value below which `percent` percent of the sample lie. A sample of one has no two neighbours
to go between, and its element is met from the far end. -/
def percentile (percent : Nat) (xs : List Double) : Double :=
  if xs.any (·.isNaN) then .nan
  else
    let sorted := (xs.mergeSort fun a b ↦ a.le b).toArray
    let element (i : Nat) : Double := sorted.getD i .nan
    let place : Double := .ofInt percent / .ofInt 100 * .ofInt (xs.length - 1 : Nat)
    let i := place.toRat.floor.toNat
    if i + 1 < xs.length then interpolate (element i) (element (i + 1)) (place - .ofInt i)
    else
      let last := element (xs.length - 1)
      interpolate last last (.ofInt 1)

end Depthwise.Sample
