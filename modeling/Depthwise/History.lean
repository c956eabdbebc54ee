import Depthwise.Buffer
import Depthwise.Metrics
import Depthwise.Ranking.Runs

namespace Depthwise

open Report (Value)

structure Record where
  metrics : Metrics
  info : List (String × Value)
  passed : Bool
  deriving Repr

structure History where
  metrics : Array Metrics := #[]
  results : Array Record := #[]
  failures : Array Record := #[]
  /-- Trials by configuration, in the order in which the configurations were first seen. -/
  byConfig : List (Value × List Metrics) := []
  deriving Repr

/-- A computation that records trials. What was recorded before an error stays. -/
abbrev Recording := ExceptT Fault (StateM History)

namespace Record

def toValue (r : Record) : Value :=
  .record [("metrics", r.metrics.toValue), ("test_info", .record r.info),
    ("passed", .bool r.passed)]

end Record

namespace History

def addTo (m : Metrics) (config : Value) :
    List (Value × List Metrics) → List (Value × List Metrics)
  | [] => [(config, [m])]
  | (c, ms) :: rest =>
    if c.names config then (c, ms ++ [m]) :: rest else (c, ms) :: addTo m config rest

def addResult (h : History) (r : Record) : History :=
  { h with
    results := h.results.push r
    failures := if 0 < r.metrics.numFailures then h.failures.push r else h.failures }

def addToGroup (h : History) (m : Metrics) (config : Value) : History :=
  { h with byConfig := addTo m config h.byConfig }

def record (m : Metrics) (info : List (String × Value)) : Recording Unit := do
  modify fun h ↦ { h with metrics := h.metrics.push m }
  if !m.failureRate.isFinite then throw .overflow
  modify (·.addResult ⟨m, info, m.passed⟩)
  if let some config := info.lookup "config" then
    if config.isComposite then throw .unusableName
    modify (·.addToGroup m config)

variable (h : History)

def milder (a b : Record) : Bool := a.metrics.maxAbsError.lt b.metrics.maxAbsError

/-- The recorded trials with the largest errors first; equal errors keep the order of recording. An
error that is not a number has no place in this order, and the way of sorting decides. -/
def worstFirst : List Record := Ranking.sortDown milder h.results.toList

def worstCases (count : Int) : List Record := Buffer.front h.worstFirst count

end History

end Depthwise
