
namespace Depthwise

abbrev Bytes := Array UInt8

namespace Buffer

variable {α : Type}

/-- A negative position counts from the end. -/
def position? (size : Nat) (i : Int) : Option Nat :=
  let place := if i < 0 then size + i else i
  if 0 ≤ place ∧ place < size then some place.toNat else none

/-- Where a range that starts or ends at `i` is cut. -/
def bound (size : Nat) (i : Int) : Nat :=
  if i < 0 then (size + i).toNat else min i.toNat size

def read? (xs : Array α) (i : Int) : Option α := (position? xs.size i).bind (xs[·]?)

def slice (xs : Array α) (start stop : Int) : Array α :=
  xs.extract (bound xs.size start) (bound xs.size stop)

/-- The first `count` elements of a list, or all but the last `-count`. -/
def front (xs : List α) (count : Int) : List α := xs.take (bound xs.length count)

def overwrite (xs : Array α) (start : Nat) (values : List α) : Array α :=
  match values with
  | [] => xs
  | v :: rest => overwrite (xs.setIfInBounds start v) (start + 1) rest

/-- The row stretched to `length` elements, if it has that many or just one. -/
def stretch? (xs : Array α) (length : Nat) : Option (Array α) :=
  if xs.size = length then some xs
  else if xs.size = 1 then (xs[0]?).map (Array.replicate length)
  else none

end Buffer

end Depthwise
