import Depthwise.Ranking.Reach

namespace Depthwise.Ranking

variable {α : Type}

/-- How a merge moves elements: one at a time, with the number of times in a row that each run has
won, or in stretches. -/
inductive Pace where
  | single (heldWins otherWins : Nat)
  | stretches
  deriving DecidableEq, Repr

/-- A merge under way. What has been moved is kept latest first. -/
structure Merge (α : Type) where
  moved : List α := []
  /-- The run that is no longer than the other one. Its last element goes last. -/
  held : List α
  other : List α
  /-- The number of wins in a row after which stretches are moved. -/
  patience : Nat
  pace : Pace := .single 0 0

namespace Merge

def worthwhile : Nat := 7

variable (side : Side) (otherFirst : α → α → Bool) (m : Merge α)

def finished : Bool := m.held.length ≤ 1 || m.other.isEmpty

def result : List α := m.moved.reverse ++ m.other ++ m.held

def moveHeld (count : Nat) : Merge α :=
  { m with moved := (m.held.take count).reverse ++ m.moved, held := m.held.drop count }

def moveOther (count : Nat) : Merge α :=
  { m with moved := (m.other.take count).reverse ++ m.moved, other := m.other.drop count }

def single (heldWins otherWins : Nat) : Merge α :=
  match m.held, m.other with
  | x :: _, y :: _ =>
    let (next, wins, pace) : Merge α × Nat × Pace :=
      if otherFirst x y then (m.moveOther 1, otherWins + 1, .single 0 (otherWins + 1))
      else (m.moveHeld 1, heldWins + 1, .single (heldWins + 1) 0)
    { next with pace := if m.patience ≤ wins then .stretches else pace }
  | _, _ => m

def stretchOfHeld : Nat × Merge α :=
  let count := (m.other.head?.map fun y ↦ reach side (!otherFirst · y) m.held).getD 0
  (count, m.moveHeld count)

def stretchOfOther : Nat × Merge α :=
  let count := (m.held.head?.map fun x ↦ reach side (otherFirst x ·) m.other).getD 0
  (count, m.moveOther count)

def unlessFinished (move : Merge α → Merge α) : Merge α := if m.finished then m else move m

/-- Moves a stretch of each run. A stretch ends where an element of the other run goes. -/
def stretches : Nat × Nat × Merge α :=
  match side with
  | .front =>
    let (first, m) := m.stretchOfHeld side otherFirst
    let m := m.unlessFinished (moveOther · 1)
    let (second, m) := if m.finished then (0, m) else m.stretchOfOther side otherFirst
    (first, second, m.unlessFinished (moveHeld · 1))
  | .back =>
    let (first, m) := m.stretchOfOther side otherFirst
    let m := m.unlessFinished (moveHeld · 1)
    let (second, m) := if m.finished then (0, m) else m.stretchOfHeld side otherFirst
    (first, second, m.unlessFinished (moveOther · 1))

/-- Moves at the present pace. As long as stretches pay, the merge grows less patient. -/
def step : Merge α :=
  match m.pace with
  | .single heldWins otherWins => m.single otherFirst heldWins otherWins
  | .stretches =>
    let (first, second, m) := m.stretches side otherFirst
    if m.finished then m
    else if worthwhile ≤ first ∨ worthwhile ≤ second then
      { m with patience := max 1 (m.patience - 1) }
    else { m with patience := m.patience + 1, pace := .single 0 0 }

def run : Nat → Merge α → Merge α
  | 0, m => m
  | fuel + 1, m => if m.finished then m else run fuel (m.step side otherFirst)

/-- Merges two runs, of which the first element of `other` goes first. -/
def ofRuns (held other : List α) (patience : Nat) : Merge α :=
  run side otherFirst (held.length + other.length)
    (moveOther { held, other, patience } 1)

end Merge

def mergeTrimmed (before : α → α → Bool) (patience : Nat) (xs ys : List α) : List α × Nat :=
  if xs.length ≤ ys.length then
    let m := Merge.ofRuns .front (fun x y ↦ before y x) xs ys patience
    (m.result, m.patience)
  else
    let m := Merge.ofRuns .back before ys.reverse xs.reverse patience
    (m.result.reverse, m.patience)

/-- Merges two neighbouring runs. What is already in place at either end stays there. -/
def mergeRuns (before : α → α → Bool) (patience : Nat) (xs ys : List α) : List α × Nat :=
  match ys.head?, xs.getLast? with
  | some y, some x =>
    let front := reach .front (!before y ·) xs
    let back := ys.length - reach .back (!before · x) ys.reverse
    if front = xs.length ∨ back = 0 then (xs ++ ys, patience)
    else
      let (merged, patience) := mergeTrimmed before patience (xs.drop front) (ys.take back)
      (xs.take front ++ merged ++ ys.drop back, patience)
  | _, _ => (xs ++ ys, patience)

end Depthwise.Ranking
