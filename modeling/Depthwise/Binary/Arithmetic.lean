import Depthwise.Binary.Round

namespace Depthwise.Binary

variable {F : Format}

def neg : Binary F → Binary F
  | .nan => .nan
  | .infinite negative => .infinite (!negative)
  | .finite negative m e h => .finite (!negative) m e h

def abs : Binary F → Binary F
  | .nan => .nan
  | .infinite _ => .infinite false
  | .finite _ m e h => .finite false m e h

/-- An exact zero sum is negative only when both summands are. -/
def add : Binary F → Binary F → Binary F
  | .nan, _ => .nan
  | _, .nan => .nan
  | .infinite s, .infinite t => if s = t then .infinite s else .nan
  | .infinite s, .finite .. => .infinite s
  | .finite .., .infinite t => .infinite t
  | x@(.finite s ..), y@(.finite t ..) =>
    let sum := x.toRat + y.toRat
    if sum = 0 then zero (s && t) else ofRat sum

def sub (x y : Binary F) : Binary F := x.add y.neg

def mul : Binary F → Binary F → Binary F
  | .nan, _ => .nan
  | _, .nan => .nan
  | .infinite s, .infinite t => .infinite (s != t)
  | .infinite s, .finite t m .. => if m = 0 then .nan else .infinite (s != t)
  | .finite s m .., .infinite t => if m = 0 then .nan else .infinite (s != t)
  | x@(.finite s ..), y@(.finite t ..) => roundMagnitude (s != t) (x.toRat * y.toRat).abs

def div : Binary F → Binary F → Binary F
  | .nan, _ => .nan
  | _, .nan => .nan
  | .infinite _, .infinite _ => .nan
  | .infinite s, .finite t .. => .infinite (s != t)
  | .finite s .., .infinite t => zero (s != t)
  | x@(.finite s m ..), y@(.finite t n ..) =>
    if n = 0 then if m = 0 then .nan else .infinite (s != t)
    else roundMagnitude (s != t) (x.toRat / y.toRat).abs

instance : Neg (Binary F) := ⟨neg⟩

instance : Add (Binary F) := ⟨add⟩

instance : Sub (Binary F) := ⟨sub⟩

instance : Mul (Binary F) := ⟨mul⟩

instance : Div (Binary F) := ⟨div⟩

/-- The order of the values; not a number is unordered and the two zeros are equal. -/
def lt : Binary F → Binary F → Bool
  | .nan, _ => false
  | _, .nan => false
  | .infinite s, .infinite t => s && !t
  | .infinite s, .finite .. => s
  | .finite .., .infinite t => !t
  | x@(.finite ..), y@(.finite ..) => decide (x.toRat < y.toRat)

def le (x y : Binary F) : Bool := !x.isNaN && !y.isNaN && !y.lt x

def clip (x low high : Binary F) : Binary F :=
  let raised := if x.lt low then low else x
  if high.lt raised then high else raised

/-- Bit by bit, the largest number whose square is at most `n`, below `root + 2 ^ bits`. -/
def squareRootBits (n : Nat) : Nat → Nat → Nat
  | 0, root => root
  | bit + 1, root =>
    let next := root + 1 <<< bit
    squareRootBits n bit (if next * next ≤ n then next else root)

def squareRoot (n : Nat) : Nat := squareRootBits n (n.log2 / 2 + 1) 0

/-- A rational that rounds as the square root of `x` does: the root itself if it has few bits, and
otherwise a point strictly inside the same unit of a grid much finer than the format's. -/
def rootWitness (precision : Nat) (x : Rat) : Rat :=
  let fine : Int := precision + 2 - leadingExponent x / 2
  let scaled := x * (2 : Rat) ^ (2 * fine)
  let root := squareRoot scaled.floor.toNat
  if ((root * root : Nat) : Rat) = scaled then (root : Rat) / (2 : Rat) ^ fine
  else ((2 * root + 1 : Nat) : Rat) / (2 : Rat) ^ (fine + 1)

def sqrt : Binary F → Binary F
  | .nan => .nan
  | .infinite negative => if negative then .nan else .infinite false
  | x@(.finite negative m ..) =>
    if m = 0 then x
    else if negative then .nan
    else roundMagnitude false (rootWitness F.precision x.toRat)

end Depthwise.Binary
