import Depthwise.Decimal.Fixed
import Depthwise.Report.Summary
import Depthwise.Scenario
import Depthwise.Session.Trial

namespace Depthwise.Session

open Report (Value)

variable {σ : Type} (bench : Bench σ)

structure FailedConfig where
  config : String
  error : String
  deriving DecidableEq, Repr

structure ScenarioResult where
  scenario : String
  totalTests : Nat
  passed : Nat
  failures : List FailedConfig
  deriving DecidableEq, Repr

namespace ScenarioResult

variable (r : ScenarioResult)

def failed : Nat := r.failures.length

def passRate : Double := if r.totalTests = 0 then .zero false else .ofRatio r.passed r.totalTests

def toValue : Value :=
  .record [
    ("scenario", .text r.scenario),
    ("total_tests", .int r.totalTests),
    ("passed", .int r.passed),
    ("failed", .int r.failed),
    ("failures", .list (r.failures.map fun f ↦
      .record [("config", .text f.config), ("error", .text f.error)])),
    ("pass_rate", .number r.passRate)]

end ScenarioResult

def rule : String := String.ofList (List.replicate 60 '=')

def percentText (share : Double) : String := Decimal.fixed 2 (share * .ofInt 100)

def scenarioHeading (scenario : Scenario) (count : Nat) : List (List Text.Part) := [
  ["\n" ++ rule], ["Running Scenario: " ++ scenario.name],
  ["Description: " ++ scenario.description], [s!"Number of configurations: {count}"], [rule]]

def failureLines (description listing : String) (e : Error) : List (List Text.Part) :=
  match e with
  | .failure _ => [["\n  ❌ FAILED: " ++ description], ["     " ++ listing]]
  | _ => [["\n  ❌ ERROR in " ++ description ++ ": " ++ listing]]

def scenarioLines (r : ScenarioResult) : List (List Text.Part) := [
  ["\nScenario Results:"], [s!"  Passed: {r.passed}/{r.totalTests}"],
  [s!"  Failed: {r.failed}/{r.totalTests}"], ["  Pass Rate: " ++ percentText r.passRate ++ "%"]]

/-- Tests one configuration. What stops it is a result, not an error, as long as it can be
listed. -/
def testConfig (verbose : Bool) (config : Config) : Run σ (Option FailedConfig) := do
  match ← attempt (test bench config) with
  | .ok _ => return none
  | .error e =>
    let description ← config.describe
    let listing ← Text.write e.listing
    if verbose then say (failureLines description listing e)
    return some ⟨description, listing⟩

def runScenario (scenario : Scenario) (base : Config) (count : Int) (verbose : Bool) :
    Run σ ScenarioResult := do
  let configs ← draw (scenario.configs base count)
  if verbose then say (scenarioHeading scenario configs.length)
  let outcomes ← configs.mapM (testConfig bench verbose)
  let failures := outcomes.filterMap id
  let result : ScenarioResult :=
    ⟨scenario.name, configs.length, configs.length - failures.length, failures⟩
  if verbose then say (scenarioLines result)
  return result

structure SuiteResult where
  scenarios : List ScenarioResult
  summary : Option Report.Summary
  totalFailed : Nat
  seed : Int
  deriving DecidableEq, Repr

namespace SuiteResult

/-- The duration of a suite. A suite is a pure computation and takes none. -/
def elapsed : Double := .zero false

def toValue (r : SuiteResult) : Value :=
  .record [
    ("scenario_results", .list (r.scenarios.map (·.toValue))),
    ("summary", (r.summary.map (·.toValue)).getD (.record [])),
    ("total_failed", .int r.totalFailed),
    ("elapsed_time", .number elapsed),
    ("seed", .int r.seed)]

end SuiteResult

def blanks (count : Nat) : String := String.ofList (List.replicate count ' ')

def suiteHeading (kernelName : String) (seed : Int) : List (List Text.Part) := [
  ["\n" ++ rule], [blanks 12 ++ "DEPTHWISE MICRO-KERNEL VERIFICATION"], [rule],
  ["Kernel: " ++ kernelName], ["Seed: ", seed], [rule]]

def summaryLines (s : Report.Summary) : List (List Text.Part) := [
  ["\nTrial Statistics:"], [s!"  Total Trials: {s.totalTests}"], [s!"  Passed: {s.totalPassed}"],
  [s!"  Failed: {s.totalFailed}"], ["  Pass Rate: " ++ percentText s.passRate ++ "%"],
  ["\nMax Absolute Error (output codes):"],
  ["    Min:  " ++ Decimal.fixed 4 s.maxErrors.min],
  ["    Mean: " ++ Decimal.fixed 4 s.maxErrors.mean],
  ["    Max:  " ++ Decimal.fixed 4 s.maxErrors.max],
  ["    P99:  " ++ Decimal.fixed 4 s.maxErrors.p99]]

def suiteLines (r : SuiteResult) : List (List Text.Part) :=
  let heading : List (List Text.Part) :=
    [["\n" ++ rule], [blanks 20 ++ "VERIFICATION SUMMARY"], [rule]]
  let closing : List (List Text.Part) := [
    [s!"\nFailed configurations: {r.totalFailed}"], ["Seed: ", r.seed],
    ["Elapsed Time: " ++ Decimal.fixed 2 SuiteResult.elapsed ++ " seconds"], [rule]]
  heading ++ (r.summary.map summaryLines).getD [] ++ closing

def runSuite (base : Config) (count : Int) (verbose : Bool) : Run σ SuiteResult := do
  let seed := (← get).seed
  if verbose then say (suiteHeading bench.kernel.name seed)
  let scenarios ← Scenario.all.mapM fun scenario ↦ runScenario bench scenario base count verbose
  let summary ← Report.Summary.ofHistory (← get).history
  let result : SuiteResult :=
    ⟨scenarios, summary, (scenarios.map (·.failed)).foldr (· + ·) 0, seed⟩
  if verbose then say (suiteLines result)
  return result

end Depthwise.Session
