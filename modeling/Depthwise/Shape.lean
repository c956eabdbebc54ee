
namespace Depthwise.Shape

def known (axes : List Int) : Nat := (axes.filter (0 ≤ ·)).foldr (fun a n ↦ a.toNat * n) 1

def leastLength : Int := -0x8000000000000000

def largestSpan : Nat := 0x7fffffffffffffff

/-- Whether a table without elements spans too much all the same: the axes that have a length count,
and so do the `width` bytes of an element. -/
def overlarge (width : Nat) (axes : List Int) : Bool :=
  decide (largestSpan < width * known (axes.filter (· ≠ 0)))

/-- The lengths of the axes along which `count` bytes are seen. A single negative length is left
open; it becomes whatever the others leave. -/
def resolve? (count : Nat) (axes : List Int) : Option (List Nat) :=
  if count = 0 ∧ overlarge 1 axes then none
  else
    match axes.filter (· < 0) with
    | [] => if known axes = count then some (axes.map Int.toNat) else none
    | [gap] =>
      if gap < leastLength ∨ known axes = 0 ∨ count % known axes ≠ 0 then none
      else some (axes.map fun a ↦ if a < 0 then count / known axes else a.toNat)
    | _ => none

/-- The common length of two rows, where a row of one element is repeated as often as needed. -/
def common? (m n : Nat) : Option Nat :=
  if m = n then some m else if m = 1 then some n else if n = 1 then some m else none

def spread (size i : Nat) : Nat := if size = 1 then 0 else i

end Depthwise.Shape
