import Depthwise.Binary.Bounded
import Depthwise.History

namespace Depthwise.Report

structure MaxErrors where
  min : Double
  max : Double
  mean : Double
  deviation : Double
  p50 : Double
  p95 : Double
  p99 : Double
  deriving DecidableEq, Repr

structure MeanErrors where
  min : Double
  max : Double
  mean : Double
  deviation : Double
  deriving DecidableEq, Repr

structure FailureRates where
  min : Double
  max : Double
  mean : Double
  deriving DecidableEq, Repr

def MaxErrors.ofErrors (xs : List Double) : MaxErrors where
  min := Sample.minimum xs
  max := Sample.maximum xs
  mean := Sample.mean xs
  deviation := Sample.deviation xs
  p50 := Sample.percentile 50 xs
  p95 := Sample.percentile 95 xs
  p99 := Sample.percentile 99 xs

def MeanErrors.ofErrors (xs : List Double) : MeanErrors where
  min := Sample.minimum xs
  max := Sample.maximum xs
  mean := Sample.mean xs
  deviation := Sample.deviation xs

def FailureRates.ofRates (xs : List Double) : FailureRates where
  min := Sample.minimum xs
  max := Sample.maximum xs
  mean := Sample.mean xs

structure Summary where
  totalTests : Nat
  totalPassed : Nat
  totalFailed : Nat
  passRate : Double
  maxErrors : MaxErrors
  meanErrors : MeanErrors
  failureRates : FailureRates
  deriving DecidableEq, Repr

namespace Summary

def rate (m : Metrics) : Except Fault Double := Binary.ofRatio? m.numFailures m.totalElements

def ofHistory (h : History) : Except Fault (Option Summary) := do
  if h.metrics.isEmpty then return none
  let trials := h.metrics.toList
  let rates ← trials.mapM rate
  let total := trials.length
  let failed := (h.results.toList.filter (!·.passed)).length
  return some {
    totalTests := total
    totalPassed := total - failed
    totalFailed := failed
    passRate := .ofRatio (total - failed : Nat) total
    maxErrors := .ofErrors (trials.map (·.maxAbsError))
    meanErrors := .ofErrors (trials.map (·.meanAbsError))
    failureRates := .ofRates rates }

def toValue (s : Summary) : Value :=
  .record [
    ("total_tests", .int s.totalTests),
    ("total_passed", .int s.totalPassed),
    ("total_failed", .int s.totalFailed),
    ("pass_rate", .number s.passRate),
    ("max_abs_error", .record [
      ("min", .number s.maxErrors.min),
      ("max", .number s.maxErrors.max),
      ("mean", .number s.maxErrors.mean),
      ("std", .number s.maxErrors.deviation),
      ("p50", .number s.maxErrors.p50),
      ("p95", .number s.maxErrors.p95),
      ("p99", .number s.maxErrors.p99)]),
    ("mean_abs_error", .record [
      ("min", .number s.meanErrors.min),
      ("max", .number s.meanErrors.max),
      ("mean", .number s.meanErrors.mean),
      ("std", .number s.meanErrors.deviation)]),
    ("failure_rate", .record [
      ("min", .number s.failureRates.min),
      ("max", .number s.failureRates.max),
      ("mean", .number s.failureRates.mean)])]

end Summary

def summaryValue (h : History) : Except Fault Value := do
  return ((← Summary.ofHistory h).map Summary.toValue).getD (.record [])

structure ConfigSummary where
  numTrials : Nat
  maxError : Double
  meanError : Double
  failures : Int
  deriving DecidableEq, Repr

namespace ConfigSummary

def ofTrials (trials : List Metrics) : ConfigSummary where
  numTrials := trials.length
  maxError := Sample.maximum (trials.map (·.maxAbsError))
  meanError := Sample.mean (trials.map (·.maxAbsError))
  failures := (trials.map (·.numFailures)).foldr (· + ·) 0

def toValue (s : ConfigSummary) : Value :=
  .record [
    ("num_trials", .int s.numTrials),
    ("max_abs_error", .record [("max", .number s.maxError), ("mean", .number s.meanError)]),
    ("failures", .int s.failures)]

end ConfigSummary

def configSummaries (h : History) : List (Value × ConfigSummary) :=
  h.byConfig.map fun (config, trials) ↦ (config, .ofTrials trials)

def worstListed : Nat := 20

def failuresListed : Nat := 100

def ofHistory (h : History) : Except Fault Value := do
  let summary ← summaryValue h
  let configs ← (configSummaries h).mapM fun (c, s) ↦ return (← c.key, s.toValue)
  return .record [
    ("summary", summary),
    ("config_statistics", .record configs),
    ("worst_cases", .list ((h.worstCases worstListed).map (·.toValue))),
    ("failure_cases", .list ((h.failures.toList.take failuresListed).map (·.toValue)))]

def text (h : History) : Except Fault String := do
  (← ofHistory h).write

end Depthwise.Report
