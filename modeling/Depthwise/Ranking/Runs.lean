import Depthwise.Ranking.Merge

namespace Depthwise.Ranking

variable {α : Type} (before : α → α → Bool)

/-- The elements behind `x` that go on as a run begins, and the others. In a falling run each
element is before the last one, in a rising run none is. -/
def follow (falling : Bool) (x : α) : List α → List α × List α
  | [] => ([], [])
  | y :: rest =>
    if before y x = falling then
      let (run, others) := follow falling y rest
      (y :: run, others)
    else ([], y :: rest)

def cutRun : List α → List α × List α
  | [] => ([], [])
  | [x] => ([x], [])
  | x :: y :: rest =>
    let falling := before y x
    let (run, others) := follow before falling y rest
    (if falling then (x :: y :: run).reverse else x :: y :: run, others)

def insertInto (run : List α) (x : α) : List α :=
  let place := bisect .front (fun i ↦ run[i]?.any (!before x ·)) 0 run.length
  run.take place ++ x :: run.drop place

def shortest : Nat := 64

/-- The length up to which runs are filled, with `fuel` halvings: between half of `shortest` and
`shortest`, so that the list makes a power of two of them or a little less. -/
def fillLength : Nat → Nat → Nat → Nat
  | 0, odd, size => size + odd
  | fuel + 1, odd, size =>
    if size < shortest then size + odd else fillLength fuel (max odd (size % 2)) (size / 2)

/-- A list in runs, in order, each filled up to `least` elements. -/
def runs (least : Nat) : Nat → List α → List (List α)
  | 0, _ => []
  | fuel + 1, xs =>
    let (run, others) := cutRun before xs
    let missing := least - run.length
    let filled := (others.take missing).foldl (insertInto before) run
    if xs.isEmpty then [] else filled :: runs least fuel (others.drop missing)

/-- A run that waits to be merged: where it starts, and the depth at which a bisection of the list
separates it from the one behind it. -/
structure Pending (α : Type) where
  items : List α
  start : Nat
  depth : Nat := 0

/-- The first binary digit in which `a / size` and `b / size` differ. -/
def depthOf (size : Nat) : Nat → Nat → Nat → Nat
  | 0, _, _ => 0
  | fuel + 1, a, b =>
    if size ≤ a then 1 + depthOf size fuel (2 * (a - size)) (2 * (b - size))
    else if size ≤ b then 1
    else 1 + depthOf size fuel (2 * a) (2 * b)

/-- The waiting runs, the last one first, and the patience of the merges. -/
structure Stack (α : Type) where
  pending : List (Pending α) := []
  patience : Nat := Merge.worthwhile

namespace Stack

/-- Merges the last two runs while the boundary between them lies deeper than `depth`. -/
def mergeDeeper (depth : Nat) : Nat → Stack α → Stack α
  | 0, s => s
  | fuel + 1, s =>
    match s.pending with
    | last :: previous :: rest =>
      if depth < previous.depth then
        let (items, patience) := mergeRuns before s.patience previous.items last.items
        mergeDeeper depth fuel ⟨{ previous with items } :: rest, patience⟩
      else s
    | _ => s

def push (size : Nat) (s : Stack α) (run : List α) : Stack α :=
  match s.pending with
  | [] => { s with pending := [⟨run, 0, 0⟩] }
  | last :: _ =>
    let a := 2 * last.start + last.items.length
    let depth := depthOf size size a (a + last.items.length + run.length)
    let s := mergeDeeper before depth s.pending.length s
    match s.pending with
    | [] => { s with pending := [⟨run, 0, 0⟩] }
    | last :: rest =>
      { s with
        pending := ⟨run, last.start + last.items.length, 0⟩ :: { last with depth } :: rest }

/-- Merges two runs near the end. The last one waits if it is longer than the one two before it. -/
def collapse (s : Stack α) : Stack α :=
  match s.pending with
  | last :: previous :: first :: rest =>
    if first.items.length < last.items.length then
      let (items, patience) := mergeRuns before s.patience first.items previous.items
      ⟨last :: { first with items } :: rest, patience⟩
    else
      let (items, patience) := mergeRuns before s.patience previous.items last.items
      ⟨{ previous with items } :: first :: rest, patience⟩
  | [last, previous] =>
    let (items, patience) := mergeRuns before s.patience previous.items last.items
    ⟨[{ previous with items }], patience⟩
  | _ => s

def toList : Nat → Stack α → List α
  | 0, s => (s.pending.reverse.map (·.items)).flatten
  | fuel + 1, s => toList fuel (s.collapse before)

end Stack

/-- Any relation will do, also one that leaves elements incomparable: then the comparisons made
decide. -/
def sort (xs : List α) : List α :=
  let size := xs.length
  let pieces := runs before (fillLength size 0 size) size xs
  (pieces.foldl (Stack.push before size) {}).toList before pieces.length

/-- The list from the last in the order to the first; equal elements keep their order. -/
def sortDown (xs : List α) : List α := (sort before xs.reverse).reverse

end Depthwise.Ranking
