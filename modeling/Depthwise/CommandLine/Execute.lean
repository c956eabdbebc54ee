import Depthwise.CommandLine.Arguments
import Depthwise.Session.Suite

namespace Depthwise.CommandLine

open Session (rule)

variable {σ : Type}

/-- What a run leaves: the exit status, the printed text, and the report for a file, if one was
asked for. -/
structure Result where
  status : UInt32
  printed : String
  report? : Option (String × String)
  deriving Repr

def baseSettings (o : Options) : Settings :=
  { kernelHeight := o.kernelHeight
    kernelWidth := o.kernelWidth
    tile := o.tile
    iterations := o.iterations }

def heading (o : Options) (kernelName : String) (seed : Int) : List (List Text.Part) := [
  [rule], ["Depthwise Micro-Kernel Verification"], [rule], ["Kernel: " ++ kernelName],
  ["Configurations per scenario: ", o.tests], ["Trials per configuration: ", o.iterations],
  ["Seed: ", seed], [rule]]

def padRight (width : Nat) (s : String) : String := s ++ Session.blanks (width - s.length)

def scenarioLine (r : Session.ScenarioResult) : List Text.Part :=
  ["  " ++ padRight 22 r.scenario ++ s!" {r.passed}/{r.totalTests} passed"]

def verdictLines (r : Session.SuiteResult) : List (List Text.Part) :=
  if r.totalFailed = 0 then [["\n✅ VERIFICATION PASSED"]]
  else [.words s!"\n❌ VERIFICATION FAILED ({r.totalFailed} configurations)"] ::
    r.scenarios.flatMap fun s ↦ s.failures.map fun f ↦
      [.words ("  " ++ f.config ++ ": " ++ f.error)]

/-- The file that a report goes to; an empty name asks for none. -/
def reportPath (o : Options) : Option String := o.output?.filter (· ≠ "")

def session (o : Options) (base : Config) (bench : Bench σ) :
    Run σ (UInt32 × Option (String × String)) := do
  Session.say (heading o bench.kernel.name (← get).seed)
  let results ← Session.runSuite bench base o.tests o.verbose
  let report? ← match reportPath o with
    | none => pure none
    | some path =>
      Session.say [["\nExporting detailed report to " ++ path ++ "..."]]
      let text ← Report.text (← get).history
      pure (some (path, text))
  Session.say (results.scenarios.map scenarioLine)
  Session.say (verdictLines results)
  return (if results.totalFailed = 0 then 0 else 1, report?)

/-- Runs what the options ask for. `kernel` builds the kernel of a family for a tap count and a tile
width. On an error the text printed before it is kept. -/
def execute (o : Options) (seed : Int)
    (kernel : Kernel.Family → Int → Int → Except Fault (Kernel σ)) (outside : σ) :
    Except (Error × String) Result :=
  let prepared : Except Error (Config × Kernel σ × Session σ) := do
    let base ← Config.ofSettings (baseSettings o)
    let kernel ← kernel o.family base.kernelSize base.tile
    return (base, kernel, ← Session.start seed outside)
  match prepared with
  | .error e => .error (e, "")
  | .ok (base, kernel, start) =>
    match (session o base (Bench.ofKernel kernel)).run.run start with
    | (.error e, s) => .error (e, s.transcript)
    | (.ok (status, report?), s) => .ok ⟨status, s.transcript, report?⟩

def seedOfEntropy (bits : Nat) : Int := (bits % Random.wordCount : Nat)

end Depthwise.CommandLine
