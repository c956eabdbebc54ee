import Depthwise.Proofs.Scenario.Sizes
import Depthwise.Proofs.Session.Excess
import Depthwise.Proofs.Session.Reached

namespace Depthwise.Session

variable {σ : Type}

/-- A configuration that can be described, and whose trials have numbers that can be written. -/
structure Reportable (config : Config) : Prop where
  describable : config.Describable
  iterations : Text.Short config.iterations

def AllReportable (base : Config) (count : Int) : Prop :=
  ∀ (scenario : Scenario) (stream stream' : Random.Stream) (configs : List Config),
    (scenario.configs base count).run.run stream = (.ok configs, stream') →
      ∀ config ∈ configs, Reportable config

/-- With room to write the reach of a base, all of its scenarios can be told of. -/
theorem allReportable {base : Config} (hbase : base.Unpadded)
    (hheight : Text.Short base.kernelHeight) (hwidth : Text.Short base.kernelWidth)
    (hreach : Text.Short base.reach) (hiterations : Text.Short base.iterations) (count : Int) :
    AllReportable base count := by
  intro scenario stream stream' configs hrun config hmem
  obtain ⟨hkernel, hwithin⟩ := scenario.within_of_configs hbase hrun config hmem
  have htile : Text.Short base.tile := by
    refine hreach.of_natAbs_le ?_
    have hbounds := hbase.bounds
    rw [Settings.reach]
    omega
  constructor
  · refine hwithin.describable config.regular ?_ ?_ ?_ hreach
    · rwa [hkernel.kernelHeight]
    · rwa [hkernel.kernelWidth]
    · rwa [hkernel.tile]
  · rwa [hkernel.iterations]

/-- A configuration that has been tested: how its trials ended, and what the test came to. -/
structure Tested where
  config : Config
  endings : List Ending
  result : Except Error (List Metrics)

namespace Tested

variable (a : Tested)

def failure? : Option FailedConfig :=
  match a.result with
  | .ok _ => none
  | .error e => some ⟨Text.plain a.config.description, Text.plain e.listing⟩

def kind? : Option String :=
  match a.result with
  | .ok _ => none
  | .error e => some e.kind

def exceeded : Bool := a.endings.any (·.isExceeded)

/-- All trials of the configuration have been run, and all have returned. -/
def Completed : Prop :=
  a.endings.length = a.config.iterations.toNat ∧ ∀ ending ∈ a.endings, ending.isReturned = true

end Tested

/-- Configurations that are tested one after another, whatever the tests come to. Between two tests
only text is printed. -/
inductive Works (bench : Bench σ) : Session σ → List Tested → Session σ → Prop
  | done {s} : Works bench s [] s
  | next {s config endings result s' tested s''} (text : String)
      (h : Tries bench config 0 config.iterations.toNat s endings result s')
      (rest : Works bench { s' with transcript := text } tested s'') :
      Works bench s (⟨config, endings, result⟩ :: tested) s''

/-- A scenario that is run: its configurations are generated and tested, and the failed tests are
listed and counted. -/
inductive Performs (bench : Bench σ) (base : Config) (count : Int) (scenario : Scenario)
    (s : Session σ) : ScenarioResult → List Tested → Session σ → Prop
  | intro {tested between s'} (heading closing : String)
      (generated : (draw (scenario.configs base count)).run.run s =
        (.ok (tested.map (·.config)), between))
      (works : Works bench { between with transcript := heading } tested s') :
      Performs bench base count scenario s
        ⟨scenario.name, tested.length, tested.length - (tested.filterMap (·.failure?)).length,
          tested.filterMap (·.failure?)⟩
        tested { s' with transcript := closing }

inductive Covers (bench : Bench σ) (base : Config) (count : Int) : List Scenario → Session σ →
    List (ScenarioResult × List Tested) → Session σ → Prop
  | done {s} : Covers bench base count [] s [] s
  | next {scenario scenarios s result tested s' runs s''}
      (h : Performs bench base count scenario s result tested s')
      (rest : Covers bench base count scenarios s' runs s'') :
      Covers bench base count (scenario :: scenarios) s ((result, tested) :: runs) s''

section Tests

variable {bench : Bench σ} {s s' : Session σ} {tested : List Tested}

/-- Printing or not, a computation goes on in the same session but for its text. -/
theorem run_sayIf {α : Type} {P : Except Error α × Session σ → Prop} {verbose : Bool}
    {lines : List (List Text.Part)} (hlines : Writable lines) {rest : PUnit → Run σ α}
    (h : ∀ text, P ((rest ()).run.run { s with transcript := text })) :
    P ((if verbose = true then say lines >>= rest else rest ()).run.run s) := by
  split
  · obtain ⟨transcript, hrun⟩ := exists_say_run lines s
    rw [if_pos hlines] at hrun
    rw [run_bind_ok hrun]
    exact h transcript
  · exact h s.transcript

theorem writable_scenarioHeading (scenario : Scenario) (count : Nat) :
    Writable (scenarioHeading scenario count) := by
  simp [Writable, scenarioHeading]

theorem writable_failureLines (description listing : String) (e : Error) :
    Writable (failureLines description listing e) := by
  cases e <;> simp [Writable, failureLines]

theorem writable_scenarioLines (r : ScenarioResult) : Writable (scenarioLines r) := by
  simp [Writable, scenarioLines]

theorem writable_suiteHeading (kernelName : String) {seed : Int} (hseed : Text.Short seed) :
    Writable (suiteHeading kernelName seed) := by
  simp [Writable, suiteHeading, hseed]

theorem writable_suiteLines {r : SuiteResult} (hseed : Text.Short r.seed) :
    Writable (suiteLines r) := by
  cases hsummary : r.summary <;> simp [Writable, suiteLines, summaryLines, hsummary, hseed]

theorem exists_testConfig_run {config : Config} (hconfig : config.Describable)
    {result : Except Error (List Metrics)} (htext : Throws Error.Utterable result)
    (endings : List Ending) (h : (test bench config).run.run s = (result, s')) (verbose : Bool) :
    ∃ text, (testConfig bench verbose config).run.run s =
      (.ok (Tested.failure? ⟨config, endings, result⟩), { s' with transcript := text }) := by
  have hattempt : (attempt (test bench config)).run.run s = (.ok result, s') :=
    congrArg (fun r : Except Error (List Metrics) × Session σ ↦ (Except.ok r.1, r.2)) h
  rw [testConfig, run_bind_ok hattempt]
  cases result with
  | ok ms => exact ⟨s'.transcript, rfl⟩
  | error e =>
    dsimp only
    have hlisting := Text.write_ok (htext e rfl).short_listing
    rw [run_bind_ok (run_liftM_fault_ok (Settings.describe_ok hconfig) s'),
      run_bind_ok (run_liftM_fault_ok hlisting s')]
    refine run_sayIf (P := fun r ↦ ∃ text, r = (.ok (Tested.failure? ⟨config, endings, .error e⟩),
      { s' with transcript := text })) (writable_failureLines _ _ e) fun text ↦ ?_
    exact ⟨text, rfl⟩

/-- Configurations are tested in order, each of them once. -/
theorem exists_works (hkernel : bench.kernel.KeepsSize)
    (htexts : ∀ config, Raises Error.Utterable (test bench config)) (verbose : Bool)
    {configs : List Config}
    (hconfigs : ∀ config ∈ configs, config.Describable) (s : Session σ) : ∃ tested s',
      tested.map (·.config) = configs ∧ Works bench s tested s' ∧
      (configs.mapM (testConfig bench verbose)).run.run s =
        (.ok (tested.map (·.failure?)), s') := by
  induction configs generalizing s with
  | nil => exact ⟨[], s, rfl, .done, rfl⟩
  | cons config rest ih =>
    obtain ⟨endings, result, s', htries, hrun⟩ :=
      exists_tries hkernel config 0 config.iterations.toNat s
    obtain ⟨hconfig, hothers⟩ := List.forall_mem_cons.1 hconfigs
    have htext : Throws Error.Utterable result := by
      have hresult := htexts config s
      rwa [test, hrun] at hresult
    obtain ⟨text, htest⟩ := exists_testConfig_run hconfig htext endings hrun verbose
    obtain ⟨tested, s'', rfl, hworks, hrest⟩ := ih hothers { s' with transcript := text }
    refine ⟨⟨config, endings, result⟩ :: tested, s'', rfl, .next text htries hworks, ?_⟩
    rw [List.mapM_cons, run_bind_ok htest, run_bind_ok hrest]
    rfl

end Tests

section Runs

variable {bench : Bench σ} {base : Config} {count : Int} {s s' : Session σ} {tested : List Tested}

def Made (bench : Bench σ) (seed : Int) (a : Tested) : Prop :=
  ∃ s s', s.seed = seed ∧
    Tries bench a.config 0 a.config.iterations.toNat s a.endings a.result s'

theorem Works.made (h : Works bench s tested s') : ∀ a ∈ tested, Made bench s.seed a := by
  induction h with
  | done => exact List.forall_mem_nil _
  | next text h _ ih =>
    rw [← h.grows.seed_eq]
    exact List.forall_mem_cons.2 ⟨⟨_, _, h.grows.seed_eq.symm, h⟩, ih⟩

theorem Works.grows (h : Works bench s tested s') :
    Grows (tested.countP (·.exceeded)) s s' := by
  induction h with
  | done => exact .of_quiet rfl rfl
  | next text h _ ih =>
    have htest := h.grows
    rw [h.countP_isExceeded] at htest
    rw [List.countP_cons, Nat.add_comm]
    exact htest.trans ih.of_transcript

theorem Performs.made {scenario : Scenario} {result : ScenarioResult}
    (h : Performs bench base count scenario s result tested s') :
    ∀ a ∈ tested, Made bench s.seed a := by
  obtain ⟨heading, closing, generated, hworks⟩ := h
  have hdraw := quiet_draw (scenario.configs base count) s
  rw [generated] at hdraw
  rw [← hdraw.1]
  exact hworks.made

theorem Performs.reportable {scenario : Scenario} {result : ScenarioResult}
    (h : Performs bench base count scenario s result tested s') (hall : AllReportable base count) :
    ∀ a ∈ tested, Reportable a.config := by
  obtain ⟨heading, closing, generated, -⟩ := h
  have hconfigs : (scenario.configs base count).run.run s.stream =
      (.ok (tested.map (·.config)), _) :=
    Prod.ext (congrArg (·.1) generated) rfl
  exact fun a ha ↦ hall scenario _ _ _ hconfigs _ (List.mem_map_of_mem ha)

theorem Performs.grows {scenario : Scenario} {result : ScenarioResult}
    (h : Performs bench base count scenario s result tested s') :
    Grows (tested.countP (·.exceeded)) s s' := by
  obtain ⟨heading, closing, generated, hworks⟩ := h
  have hdraw := quiet_draw (scenario.configs base count) s
  rw [generated] at hdraw
  have hgrows := (Grows.of_quiet hdraw.1 hdraw.2).trans hworks.grows.of_transcript
  rw [Nat.zero_add] at hgrows
  exact ⟨hgrows.seed_eq, hgrows.results, hgrows.collected⟩

variable {scenarios : List Scenario} {runs : List (ScenarioResult × List Tested)}

theorem Covers.performs (h : Covers bench base count scenarios s runs s') :
    ∀ run ∈ runs, ∃ scenario before after, before.seed = s.seed ∧
      Performs bench base count scenario before run.1 run.2 after := by
  induction h with
  | done => exact List.forall_mem_nil _
  | next h _ ih =>
    rw [h.grows.seed_eq] at ih
    exact List.forall_mem_cons.2 ⟨⟨_, _, _, rfl, h⟩, ih⟩

theorem Covers.grows (h : Covers bench base count scenarios s runs s') :
    Grows ((runs.flatMap (·.2)).countP (·.exceeded)) s s' := by
  induction h with
  | done => exact .of_quiet rfl rfl
  | next h _ ih =>
    rw [List.flatMap_cons, List.countP_append]
    exact h.grows.trans ih

end Runs

section Made

variable {bench : Bench σ} {seed : Int} {a : Tested} (h : Made bench seed a)

include h

theorem Made.failure?_eq_none_iff : a.failure? = none ↔ a.Completed := by
  obtain ⟨s, s', -, htries⟩ := h
  rw [Tested.Completed, ← htries.exists_ok_iff, Tested.failure?]
  cases a.result <;> simp

theorem Made.kind?_of_exceeded (hseed : Text.Short seed)
    (hiterations : Text.Short a.config.iterations) (hexceeded : a.exceeded = true) :
    a.kind? = some Error.excess := by
  obtain ⟨s, s', rfl, htries⟩ := h
  obtain ⟨e, hresult, hkind⟩ :=
    htries.kind_of_isExceeded hseed (hiterations.of_natAbs_le (by omega)) hexceeded
  rw [Tested.kind?, hresult, ← hkind]

omit h in
theorem Made.exceeded_iff {kernel : Kernel σ} (hneutral : kernel.Neutral)
    (h : Made (Bench.ofKernel kernel) seed a) (hseed : Text.Short seed)
    (hiterations : Text.Short a.config.iterations) :
    a.exceeded = true ↔ a.kind? = some Error.excess := by
  refine ⟨h.kind?_of_exceeded hseed hiterations, fun hkind ↦ ?_⟩
  obtain ⟨s, s', -, htries⟩ := h
  rcases hresult : a.result with e | ms
  · rw [Tested.kind?, hresult] at hkind
    exact htries.isExceeded_of_kind (fun hcomes ↦ hcomes.kind_ne_of_stopped hneutral) hresult
      (Option.some.inj hkind)
  · rw [Tested.kind?, hresult] at hkind
    cases hkind

end Made

section Existence

variable {bench : Bench σ} (hkernel : bench.kernel.KeepsSize)
  (htexts : ∀ config, Raises Error.Utterable (test bench config)) {base : Config}
  (hbase : base.Unpadded) {count : Int} (hall : AllReportable base count) (verbose : Bool)

include hkernel htexts hbase hall

/-- A scenario always comes to its result. -/
theorem exists_performs (scenario : Scenario) (s : Session σ) : ∃ result tested s',
    Performs bench base count scenario s result tested s' ∧
      (runScenario bench scenario base count verbose).run.run s = (.ok result, s') := by
  obtain ⟨configs, stream, hconfigs⟩ := scenario.exists_configs hbase count s.stream
  have hdraw : (draw (scenario.configs base count) : Run σ (List Config)).run.run s =
      (.ok configs, { s with stream }) := run_draw hconfigs
  rw [runScenario, run_bind_ok hdraw]
  refine run_sayIf (P := fun r ↦ ∃ result tested s',
    Performs bench base count scenario s result tested s' ∧ r = (.ok result, s'))
    (writable_scenarioHeading _ _) fun heading ↦ ?_
  have hdescribable : ∀ config ∈ configs, config.Describable :=
    fun config hmem ↦ (hall scenario _ _ _ hconfigs config hmem).describable
  obtain ⟨tested, s', rfl, hworks, hrun⟩ := exists_works hkernel htexts verbose hdescribable
    { s with stream, transcript := heading }
  rw [run_bind_ok hrun]
  refine run_sayIf (P := fun r ↦ ∃ result tested s',
    Performs bench base count scenario s result tested s' ∧ r = (.ok result, s'))
    (writable_scenarioLines _) fun closing ↦ ?_
  refine ⟨_, tested, _, .intro heading closing hdraw hworks, ?_⟩
  rw [List.filterMap_map, List.length_map]
  rfl

theorem exists_covers (scenarios : List Scenario) (s : Session σ) : ∃ runs s',
    Covers bench base count scenarios s runs s' ∧
      (scenarios.mapM fun scenario ↦ runScenario bench scenario base count verbose).run.run s =
        (.ok (runs.map (·.1)), s') := by
  induction scenarios generalizing s with
  | nil => exact ⟨[], s, .done, rfl⟩
  | cons scenario rest ih =>
    obtain ⟨result, tested, s', hperforms, hrun⟩ :=
      exists_performs hkernel htexts hbase hall verbose scenario s
    obtain ⟨runs, s'', hcovers, hrest⟩ := ih s'
    refine ⟨(result, tested) :: runs, s'', .next hperforms hcovers, ?_⟩
    rw [List.mapM_cons, run_bind_ok hrun, run_bind_ok hrest]
    rfl

end Existence

/-- The accounts of a suite that took a session from `s` to `s'`: the tests that were made, and what
the results and the new records say of them. -/
structure Accounts (kernel : Kernel σ) (base : Config) (count : Int) (s : Session σ)
    (suite : SuiteResult) (runs : List (ScenarioResult × List Tested)) (s' : Session σ) :
    Prop where
  covers : ∃ opening between closing,
    Covers (Bench.ofKernel kernel) base count Scenario.all { s with transcript := opening } runs
      between ∧ s' = { between with transcript := closing }
  scenarios_eq : suite.scenarios = runs.map (·.1)
  passed_add_failed : ∀ run ∈ runs, run.1.totalTests = run.2.length ∧
    run.1.passed + run.1.failed = run.1.totalTests
  failures_eq : ∀ run ∈ runs, run.1.failures = run.2.filterMap (·.failure?) ∧
    ∀ a ∈ run.2, a.failure? = none ↔ a.Completed
  totalFailed_eq : suite.totalFailed = (suite.scenarios.map (·.failed)).sum
  totalFailed_eq_zero_iff : suite.totalFailed = 0 ↔ ∀ run ∈ runs, ∀ a ∈ run.2, a.Completed
  kind_of_exceeded : ∀ run ∈ runs, ∀ a ∈ run.2, a.exceeded = true →
    a.kind? = some Error.excess
  records : ∃ new, s'.history.results.toList = s.history.results.toList ++ new ∧
    new.countP (!·.passed) = (runs.flatMap (·.2)).countP (·.exceeded) ∧
    (kernel.Neutral → new.countP (!·.passed) =
      (runs.flatMap (·.2)).countP (·.kind? = some Error.excess))

section Accounts

variable {kernel : Kernel σ} {base : Config} {count : Int} {s s' : Session σ}

theorem Performs.accounts {bench : Bench σ} {scenario : Scenario} {result : ScenarioResult}
    {tested : List Tested} (h : Performs bench base count scenario s result tested s') :
    (result.totalTests = tested.length ∧ result.passed + result.failed = result.totalTests) ∧
      result.failures = tested.filterMap (·.failure?) := by
  obtain ⟨heading, closing, -, -⟩ := h
  have hle := List.length_filterMap_le (·.failure?) tested
  refine ⟨⟨rfl, ?_⟩, rfl⟩
  change tested.length - (tested.filterMap (·.failure?)).length +
    (tested.filterMap (·.failure?)).length = tested.length
  omega

theorem Performs.failed_eq_zero_iff {bench : Bench σ} {scenario : Scenario}
    {result : ScenarioResult} {tested : List Tested}
    (h : Performs bench base count scenario s result tested s') :
    result.failed = 0 ↔ ∀ a ∈ tested, a.Completed := by
  rw [ScenarioResult.failed, h.accounts.2, List.length_eq_zero_iff, List.filterMap_eq_nil_iff]
  exact forall₂_congr fun a ha ↦ (h.made a ha).failure?_eq_none_iff

/-- A suite that can be told of comes to its result, and its accounts are right. -/
theorem exists_accounts (hkernel : kernel.KeepsSize) (hspeaks : kernel.Speaks)
    (hbase : base.Unpadded) (hall : AllReportable base count) (verbose : Bool)
    (hseed : Text.Short s.seed) (hs : s.history.Collected) : ∃ suite runs s',
      (runSuite (Bench.ofKernel kernel) base count verbose).run.run s = (.ok suite, s') ∧
        Accounts kernel base count s suite runs s' := by
  rw [runSuite, run_bind_ok (run_get s)]
  refine run_sayIf (P := fun r ↦ ∃ suite runs s', r = (.ok suite, s') ∧
    Accounts kernel base count s suite runs s') (writable_suiteHeading _ hseed) fun opening ↦ ?_
  have hkeeps : (Bench.ofKernel kernel).kernel.KeepsSize := hkernel
  obtain ⟨runs, between, hcovers, hrun⟩ := exists_covers hkeeps (raises_test hspeaks) hbase hall
    verbose Scenario.all { s with transcript := opening }
  have hgrows := hcovers.grows
  obtain ⟨summary?, hsummary, -, -⟩ := Report.Summary.ofHistory_collected (hgrows.collected hs)
  rw [run_bind_ok hrun, run_bind_ok (run_get between),
    run_bind_ok (run_liftM_fault_ok hsummary between)]
  refine run_sayIf (P := fun r ↦ ∃ suite runs s', r = (.ok suite, s') ∧
    Accounts kernel base count s suite runs s') (writable_suiteLines hseed) fun closing ↦ ?_
  obtain ⟨new, hresults, hcount⟩ := hgrows.results
  have hperforms := hcovers.performs
  refine ⟨_, runs, _, rfl, ⟨opening, between, closing, hcovers, rfl⟩, rfl, ?_, ?_, rfl, ?_, ?_,
    new, hresults, hcount, fun hneutral ↦ hcount.trans ?_⟩
  · intro run hmem
    obtain ⟨scenario, _, _, -, h⟩ := hperforms run hmem
    exact h.accounts.1
  · intro run hmem
    obtain ⟨scenario, _, _, -, h⟩ := hperforms run hmem
    exact ⟨h.accounts.2, fun a ha ↦ (h.made a ha).failure?_eq_none_iff⟩
  · change ((runs.map (·.1)).map (·.failed)).sum = 0 ↔ _
    rw [List.map_map, List.sum_eq_zero_iff, List.forall_mem_map]
    refine forall₂_congr fun run hmem ↦ ?_
    obtain ⟨scenario, _, _, -, h⟩ := hperforms run hmem
    exact h.failed_eq_zero_iff
  · intro run hmem a ha
    obtain ⟨scenario, _, _, hsame, h⟩ := hperforms run hmem
    exact (h.made a ha).kind?_of_exceeded (hsame ▸ hseed) (h.reportable hall a ha).iterations
  · refine List.countP_congr fun a ha ↦ ?_
    obtain ⟨run, hmem, ha⟩ := List.mem_flatMap.1 ha
    obtain ⟨scenario, _, _, hsame, h⟩ := hperforms run hmem
    rw [(h.made a ha).exceeded_iff hneutral (hsame ▸ hseed) (h.reportable hall a ha).iterations,
      decide_eq_true_iff]

end Accounts

end Depthwise.Session
