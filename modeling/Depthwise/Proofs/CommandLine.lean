import Depthwise.CommandLine.Execute
import Depthwise.Proofs.Session.Accounts
import Depthwise.Proofs.Session.Detection
import Depthwise.Proofs.Session.Shipped

namespace Depthwise.CommandLine

open Session

variable {σ : Type} {kernel : Kernel σ} {base : Config} {s : Session σ}

/-- A run that can tell of itself: its kernel has a name, its heading can be written, and so can
everything that its suite prints or lists. -/
structure Tells (o : Options) (base : Config) (seed : Int) : Prop where
  kernel : ∀ p ∈ o.family.kernelName base.kernelSize base.tile, p.Short
  tests : Text.Short o.tests
  iterations : Text.Short o.iterations
  seed : Text.Short seed
  configs : AllReportable base o.tests

theorem Tells.writable_heading {o : Options} {seed : Int} (h : Tells o base seed) (name : String) :
    Writable (heading o name seed) := by
  simp [Writable, heading, h.tests, h.iterations, h.seed]

theorem writable_scenarioResults (results : List ScenarioResult) :
    Writable (results.map scenarioLine) := by
  simp [Writable, scenarioLine]

theorem writable_verdictLines (r : SuiteResult) : Writable (verdictLines r) := by
  unfold verdictLines
  split
  · simp [Writable]
  · refine List.forall_mem_cons.2 ⟨by simp, fun line hline ↦ ?_⟩
    obtain ⟨scenario, -, hline⟩ := List.mem_flatMap.1 hline
    obtain ⟨failed, -, rfl⟩ := List.mem_map.1 hline
    simp

/-- What follows a suite and its report is only printed. -/
theorem exists_closing_run (suite : SuiteResult) (report? : Option (String × String))
    (s : Session σ) : ∃ s',
      (do
        say (suite.scenarios.map scenarioLine)
        say (verdictLines suite)
        return (if suite.totalFailed = 0 then 0 else 1, report?) :
          Run σ (UInt32 × Option (String × String))).run.run s =
        (.ok (if suite.totalFailed = 0 then 0 else 1, report?), s') := by
  obtain ⟨results, hresults⟩ := exists_say_run (suite.scenarios.map scenarioLine) s
  obtain ⟨verdict, hverdict⟩ :=
    exists_say_run (verdictLines suite) { s with transcript := results }
  rw [if_pos (writable_scenarioResults _)] at hresults
  rw [if_pos (writable_verdictLines _)] at hverdict
  rw [run_bind_ok hresults, run_bind_ok hverdict]
  exact ⟨_, rfl⟩

/-- A run of the command line tells by its status whether every test has been completed, unless its
report cannot be written. -/
theorem exists_session_run (o : Options) (hkernel : kernel.KeepsSize) (hspeaks : kernel.Speaks)
    (hbase : base.Unpadded)
    (htells : Tells o base s.seed) (hs : s.history.Collected) :
    ∃ suite runs before after,
      (runSuite (Bench.ofKernel kernel) base o.tests o.verbose).run.run before =
        (.ok suite, after) ∧
      Accounts kernel base o.tests before suite runs after ∧
      ((reportPath o = none ∨ ∃ text, Report.text after.history = .ok text) →
        ∃ status report? s',
          (session o base (Bench.ofKernel kernel)).run.run s = (.ok (status, report?), s') ∧
            (status = 0 ↔ suite.totalFailed = 0)) := by
  obtain ⟨opening, hopening⟩ :=
    exists_say_run (heading o (Bench.ofKernel kernel).kernel.name s.seed) s
  rw [if_pos (htells.writable_heading _)] at hopening
  obtain ⟨suite, runs, after, hsuite, haccounts⟩ := exists_accounts
    (s := { s with transcript := opening }) hkernel hspeaks hbase htells.configs o.verbose
    htells.seed hs
  refine ⟨suite, runs, _, after, hsuite, haccounts, fun hreport ↦ ?_⟩
  have hstatus : (if suite.totalFailed = 0 then (0 : UInt32) else 1) = 0 ↔
      suite.totalFailed = 0 := by
    split <;> simp_all
  rw [session, run_bind_ok (run_get s), run_bind_ok hopening, run_bind_ok hsuite]
  cases hpath : reportPath o with
  | none =>
    obtain ⟨s', hrun⟩ := exists_closing_run suite none after
    exact ⟨_, _, s', hrun, hstatus⟩
  | some path =>
    rw [hpath] at hreport
    obtain ⟨text, htext⟩ := hreport.resolve_left (Option.some_ne_none path)
    obtain ⟨exporting, hexporting⟩ :=
      exists_say_run [[.words ("\nExporting detailed report to " ++ path ++ "...")]] after
    rw [if_pos (by simp [Writable])] at hexporting
    obtain ⟨s', hrun⟩ := exists_closing_run suite (some (path, text))
      { after with transcript := exporting }
    dsimp only
    rw [run_bind_ok hexporting, run_bind_ok (run_get _), run_bind_ok (run_liftM_fault_ok htext _)]
    exact ⟨_, _, s', hrun, hstatus⟩

theorem build_ok {family : Kernel.Family} {kernelSize tile : Int}
    (h : ∀ p ∈ family.kernelName kernelSize tile, p.Short) :
    family.build σ kernelSize tile = .ok (family.kernel σ kernelSize tile) := by
  rw [Kernel.Family.build, Text.write_ok h]
  rfl

/-- The program runs its suite to the end and tells by its status whether every test has been
completed, unless its report cannot be written. -/
theorem exists_execute (o : Options) {seed : Int}
    (hbase : Config.ofSettings (baseSettings o) = .ok base) (hseed : 0 ≤ seed)
    (htells : Tells o base seed) (outside : σ) :
    ∃ suite runs before after,
      (runSuite (Bench.ofKernel (o.family.kernel σ base.kernelSize base.tile)) base o.tests
        o.verbose).run.run before = (.ok suite, after) ∧
      Accounts (o.family.kernel σ base.kernelSize base.tile) base o.tests before suite runs
        after ∧
      ((reportPath o = none ∨ ∃ text, Report.text after.history = .ok text) →
        ∃ result, execute o seed (fun family ↦ family.build σ) outside = .ok result ∧
          (result.status = 0 ↔ suite.totalFailed = 0)) := by
  have hunpadded : base.Unpadded := by
    obtain ⟨-, hsettings⟩ := Config.ofSettings_eq_ok_iff.1 hbase
    exact ⟨congrArg Settings.inputStride hsettings, congrArg Settings.outputStride hsettings⟩
  have hstart : start seed outside = .ok { seed, stream := .ofSeed seed.toNat, outside } :=
    start_eq_ok_iff.2 ⟨hseed, rfl⟩
  obtain ⟨suite, runs, before, after, hsuite, haccounts, hends⟩ :=
    exists_session_run o (o.family.keepsSize σ base.kernelSize base.tile)
      (o.family.speaks base.kernelSize base.tile σ) hunpadded
      (s := { seed, stream := .ofSeed seed.toNat, outside }) htells History.collected_empty
  refine ⟨suite, runs, before, after, hsuite, haccounts, fun hreport ↦ ?_⟩
  obtain ⟨status, report?, s', hrun, hstatus⟩ := hends hreport
  refine ⟨⟨status, s'.transcript, report?⟩, ?_, hstatus⟩
  have hprepared : (do
      let base ← (Config.ofSettings (baseSettings o) : Except Settings.Flaw Config)
      let kernel ← o.family.build σ base.kernelSize base.tile
      return (base, kernel, ← start seed outside) :
        Except Error (Config × Kernel σ × Session σ)) =
        .ok (base, o.family.kernel σ base.kernelSize base.tile,
          { seed, stream := .ofSeed seed.toNat, outside }) := by
    rw [hbase, hstart]
    change (do
      let kernel ← o.family.build σ base.kernelSize base.tile
      return (base, kernel, _) : Except Error (Config × Kernel σ × Session σ)) = _
    rw [build_ok htells.kernel]
    rfl
  unfold execute
  rw [hprepared]
  dsimp only
  rw [hrun]

theorem raisingKernel_keepsSize : raisingKernel.KeepsSize := fun _ _ ↦ rfl

theorem raisingKernel_speaks : raisingKernel.Speaks := by
  rintro call state e ⟨⟩
  decide

theorem raisingKernel_neutral : raisingKernel.Neutral := by
  rintro call state e ⟨⟩
  decide

def nineTaps : Config := ⟨{ kernelHeight := 3, kernelWidth := 3, tile := 8 }, by decide⟩

def claimedFailure : Failure :=
  ⟨.toleranceExceeded 0 0 (.ofInt 0) 0 Affine.tolerance, none, none⟩

/-- A kernel that claims that a code is past the tolerance. -/
def claimingKernel : Kernel Unit where
  name := "claiming"
  run call := pure ⟨call.buffers, some (.failure claimedFailure)⟩

def oneTap : Config := ⟨{ iterations := 1 }, by decide⟩

def deepConfig : Config := ⟨{ kernelHeight := 10 ^ 4300 }, by decide +kernel⟩

/-- A kernel whose error has no text. -/
def mumblingKernel : Kernel Unit where
  name := "mumbling"
  run call := pure ⟨call.buffers, some (.complaint "ValueError" [.number (10 ^ 4300)])⟩

def deepSession : Session Unit where
  seed := 10 ^ 4300
  stream := .ofSeed (10 ^ 4300 : Int).toNat
  outside := ()

end Depthwise.CommandLine
