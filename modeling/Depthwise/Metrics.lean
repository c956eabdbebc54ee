import Depthwise.Fault
import Depthwise.Report.Value
import Depthwise.Sample
import Depthwise.Shape

namespace Depthwise

structure Metrics where
  maxAbsError : Double
  meanAbsError : Double
  /-- The number of elements past the tolerance. -/
  numFailures : Int
  totalElements : Int
  /-- Output position and channel of the largest error. -/
  worstPosition : Int × Int
  scale : Double
  zeroPoint : Int
  deriving DecidableEq, Repr

namespace Metrics

def absErrors (expected : List (List Double)) (observed : List (List Int)) :
    List (List Double) :=
  expected.zipWith (fun row codes ↦ row.zipWith (fun e o ↦ (e - .ofInt o).abs) codes) observed

/-- The position of the largest element: the first one that is not a number, else the first one that
no later one exceeds. -/
def worstFrom (best : Double) (place : Nat) : Nat → List Double → Nat
  | _, [] => place
  | i, x :: rest =>
    if best.isNaN then place
    else if x.isNaN || best.lt x then worstFrom x i (i + 1) rest
    else worstFrom best place (i + 1) rest

def worstIndex : List Double → Nat
  | [] => 0
  | x :: rest => worstFrom x 0 1 rest

def compute (expected : List (List Double)) (observed : List (List Int)) (tolerance scale : Double)
    (zeroPoint : Int) : Except Fault Metrics :=
  let rows := absErrors expected observed
  let errors := rows.flatten
  let columns := (rows.headD []).length
  if errors = [] then .error .unusableValue
  else
    let worst := worstIndex errors
    .ok {
      maxAbsError := Sample.maximum errors
      meanAbsError := Sample.mean errors
      numFailures := (errors.filter tolerance.lt).length
      totalElements := errors.length
      worstPosition := (worst / columns, worst % columns)
      scale
      zeroPoint }

def lanes? {α : Type} : List (List α) → Option Nat
  | [] => some 0
  | row :: rest => if rest.all (·.length = row.length) then some row.length else none

def spread {α : Type} (matrix : List (List α)) (rows lanes : Nat) : List (List α) :=
  (List.range rows).filterMap fun i ↦ matrix[Shape.spread matrix.length i]?.map fun row ↦
    (List.range lanes).filterMap fun c ↦ row[Shape.spread row.length c]?

/-- The metrics of matrices whose shapes need not be the same, as long as they go together. -/
def compare (expected : List (List Double)) (observed : List (List Int)) (tolerance scale : Double)
    (zeroPoint : Int) : Except Fault Metrics :=
  match Shape.common? expected.length observed.length, lanes? expected, lanes? observed with
  | some rows, some m, some n =>
    match Shape.common? m n with
    | some lanes =>
      compute (spread expected rows lanes) (spread observed rows lanes) tolerance scale zeroPoint
    | none => .error .unusableValue
  | _, _, _ => .error .unusableValue

variable (m : Metrics)

def passed : Bool := m.numFailures == 0

def failureRate : Double :=
  if 0 < m.totalElements then .ofRatio m.numFailures m.totalElements else .zero false

open Report in
def toValue : Value :=
  .record [
    ("max_abs_error", .number m.maxAbsError),
    ("mean_abs_error", .number m.meanAbsError),
    ("num_failures", .int m.numFailures),
    ("total_elements", .int m.totalElements),
    ("failure_rate", .number m.failureRate),
    ("worst_position", .list [.int m.worstPosition.1, .int m.worstPosition.2]),
    ("scale", .number m.scale),
    ("zero_point", .int m.zeroPoint)]

end Metrics

end Depthwise
