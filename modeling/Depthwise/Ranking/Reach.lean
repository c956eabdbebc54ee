
namespace Depthwise.Ranking

/-- The end of a run at which a search starts. A search at the back sees the run mirrored. -/
inductive Side where
  | front
  | back
  deriving DecidableEq, Repr

/-- The place that halves `[low, high)`: rounded down as the run is written. -/
def Side.middle : Side → Nat → Nat → Nat
  | .front, low, high => low + (high - low) / 2
  | .back, low, high => high - 1 - (high - low) / 2

theorem Side.middle_bounds (side : Side) {low high : Nat} (h : low < high) :
    low ≤ side.middle low high ∧ side.middle low high < high := by
  cases side <;> simp only [middle] <;> omega

def bisect (side : Side) (p : Nat → Bool) (low high : Nat) : Nat :=
  if h : low < high then
    let place := side.middle low high
    if p place then bisect side p (place + 1) high else bisect side p low place
  else low
termination_by high - low
decreasing_by
  all_goals
    have := side.middle_bounds h
    omega

/-- The last two probes, the first of them a place where `p` holds. Each distance is twice the one
before and one more. -/
def probe (p : Nat → Bool) (size last next : Nat) : Nat × Nat :=
  if h : next < size then
    if p next then probe p size next (2 * next + 1) else (last, next)
  else (last, size)
termination_by size - next

variable {α : Type}

def reach (side : Side) (p : α → Bool) (xs : List α) : Nat :=
  let holds (i : Nat) : Bool := xs[i]?.any p
  if holds 0 then
    let (last, next) := probe holds xs.length 0 1
    bisect side holds (last + 1) next
  else 0

end Depthwise.Ranking
