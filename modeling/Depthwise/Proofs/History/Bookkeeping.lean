import Depthwise.Proofs.History
import Depthwise.Proofs.History.Groups

namespace Depthwise

open Report (Value Summary)

/-- A trial that is handed over to be recorded, perhaps without any word on its origin. -/
structure Submission where
  metrics : Metrics
  origin? : Option (List (String × Value))

namespace Submission

variable (t : Submission)

def info : List (String × Value) := t.origin?.getD []

def config? : Option Value := t.info.lookup "config"

def isStored : Bool := t.metrics.failureRate.isFinite

def result : Record := ⟨t.metrics, t.info, t.metrics.passed⟩

/-- What a trial adds to the groups. It belongs to one if it is stored and its configuration can be
a name. -/
def addition? : Option (Value × Metrics) :=
  if t.isStored then (t.config?.filter (!·.isComposite)).map (·, t.metrics) else none

def outcome : Except Fault Unit :=
  if !t.isStored then .error .overflow
  else if t.config?.any (·.isComposite) then .error .unusableName
  else .ok ()

variable {t}

theorem isComposite_of_addition {e : Value × Metrics} (h : t.addition? = some e) :
    e.1.isComposite = false := by
  rw [addition?] at h
  split_ifs at h
  obtain ⟨c, hc, rfl⟩ := Option.map_eq_some_iff.1 h
  simpa using (Option.filter_eq_some_iff.1 hc).2

end Submission

namespace History

def recordAll (trials : List Submission) : StateM History (List (Except Fault Unit)) :=
  trials.mapM fun t ↦ (record t.metrics t.info).run

def recorded (trials : List Submission) : History := ((recordAll trials).run {}).2

/-- A history of the given trials. -/
structure Kept (trials : List Submission) (h : History) : Prop where
  metrics_eq : h.metrics.toList = trials.map (·.metrics)
  results_eq : h.results.toList = (trials.filter (·.isStored)).map (·.result)
  failures_eq : h.failures.toList = h.results.toList.filter fun r ↦ 0 < r.metrics.numFailures
  byConfig_eq : h.byConfig = grouped (trials.filterMap (·.addition?))

theorem kept_nil : Kept [] {} := ⟨rfl, rfl, rfl, rfl⟩

variable {trials done : List Submission} {t : Submission} {h : History}

theorem failures_addResult (h : History) (r : Record) : (h.addResult r).failures.toList =
    h.failures.toList ++ [r].filter fun r ↦ 0 < r.metrics.numFailures := by
  by_cases hfail : 0 < r.metrics.numFailures
  · simp [addResult, hfail]
  · simp [addResult, hfail]

theorem Kept.unstored (hh : Kept done h) (ht : t.isStored = false) :
    Kept (done ++ [t]) { h with metrics := h.metrics.push t.metrics } where
  metrics_eq := by simp [hh.metrics_eq]
  results_eq := by simp [hh.results_eq, ht]
  failures_eq := hh.failures_eq
  byConfig_eq := by simp [hh.byConfig_eq, Submission.addition?, ht]

theorem Kept.stored (hh : Kept done h) (ht : t.isStored = true) (hadds : t.addition? = none) :
    Kept (done ++ [t])
      (({ h with metrics := h.metrics.push t.metrics } : History).addResult t.result) where
  metrics_eq := by simp [addResult, hh.metrics_eq]
  results_eq := by simp [addResult, hh.results_eq, ht]
  failures_eq := by
    rw [failures_addResult]
    simp [addResult, hh.failures_eq]
  byConfig_eq := by simp [addResult, hh.byConfig_eq, hadds]

theorem Kept.entered (hh : Kept done h) {c : Value} (ht : t.isStored = true)
    (hadds : t.addition? = some (c, t.metrics)) :
    Kept (done ++ [t]) ((({ h with metrics := h.metrics.push t.metrics } : History).addResult
      t.result).addToGroup t.metrics c) where
  metrics_eq := by simp [addToGroup, addResult, hh.metrics_eq]
  results_eq := by simp [addToGroup, addResult, hh.results_eq, ht]
  failures_eq := by
    rw [addToGroup, failures_addResult]
    simp [addResult, hh.failures_eq]
  byConfig_eq := by
    simp [addToGroup, addResult, hh.byConfig_eq, hadds, grouped]

/-- One more trial, whether or not it is stored and belongs to a group. -/
theorem Kept.record (hh : Kept done h) (t : Submission) :
    ∃ h', (record t.metrics t.info).run.run h = (t.outcome, h') ∧ Kept (done ++ [t]) h' := by
  cases hstored : t.isStored with
  | false =>
    have hfinite : t.metrics.failureRate.isFinite = false := hstored
    refine ⟨_, ?_, hh.unstored hstored⟩
    simp only [History.record, hfinite, Submission.outcome, hstored]
    rfl
  | true =>
    have hfinite : t.metrics.failureRate.isFinite = true := hstored
    cases hconfig : t.config? with
    | none =>
      have hlookup : t.info.lookup "config" = none := hconfig
      refine ⟨_, ?_, hh.stored hstored (by simp [Submission.addition?, hconfig])⟩
      simp only [History.record, hfinite, hlookup, Submission.outcome, hstored, hconfig]
      rfl
    | some c =>
      have hlookup : t.info.lookup "config" = some c := hconfig
      cases hc : c.isComposite with
      | true =>
        refine ⟨_, ?_, hh.stored hstored (by simp [Submission.addition?, hconfig, hc])⟩
        simp only [History.record, hfinite, hlookup, hc, Submission.outcome, hstored, hconfig,
          Option.any_some]
        rfl
      | false =>
        have hadds : t.addition? = some (c, t.metrics) := by
          simp [Submission.addition?, hstored, hconfig, hc]
        refine ⟨_, ?_, hh.entered hstored hadds⟩
        simp only [History.record, hfinite, hlookup, hc, Submission.outcome, hstored, hconfig,
          Option.any_some]
        rfl

theorem recordAll_cons (t : Submission) (rest : List Submission) {r : Except Fault Unit}
    {h h' : History} (hrun : (record t.metrics t.info).run.run h = (r, h')) :
    (recordAll (t :: rest)).run h =
      (r :: ((recordAll rest).run h').1, ((recordAll rest).run h').2) := by
  rw [recordAll, List.mapM_cons, StateT.run_bind, hrun]
  rfl

theorem Kept.recordAll (hh : Kept done h) (trials : List Submission) :
    ∃ h', (recordAll trials).run h = (trials.map (·.outcome), h') ∧ Kept (done ++ trials) h' := by
  induction trials generalizing done h with
  | nil => exact ⟨h, rfl, by simpa using hh⟩
  | cons t rest ih =>
    obtain ⟨h', hrun, hkept⟩ := hh.record t
    obtain ⟨h'', hruns, hkept'⟩ := ih hkept
    refine ⟨h'', ?_, by simpa using hkept'⟩
    rw [recordAll_cons t rest hrun, hruns, List.map_cons]

theorem Kept.results_of_stored (hh : Kept trials h) (hstored : ∀ t ∈ trials, t.isStored = true) :
    h.results.toList = trials.map (·.result) := by
  rw [hh.results_eq, List.filter_eq_self.2 hstored]

theorem Partition.sum_numTrials {entries : List (Value × Metrics)}
    (hgroups : Partition entries h.byConfig) :
    ((Report.configSummaries h).map (·.2.numTrials)).sum = entries.length := by
  have hlength := hgroups.perm.length_eq
  rw [List.length_flatMap, List.length_map] at hlength
  rw [← hlength, Report.configSummaries, List.map_map]
  rfl

theorem Kept.rates_eq (hh : Kept trials h) :
    h.metrics.toList.mapM Summary.rate = trials.mapM fun t ↦ Summary.rate t.metrics := by
  rw [hh.metrics_eq, List.mapM_map]
  rfl

theorem rate_submission (ht : 0 < t.metrics.totalElements) : Summary.rate t.metrics =
    if t.isStored then .ok t.metrics.failureRate else .error .overflow :=
  Summary.rate_eq_bounded ht

structure Tallied (trials : List Submission) (h : History) : Prop where
  empty : trials = [] → Summary.ofHistory h = .ok none
  overflow : (∃ t ∈ trials, t.isStored = false) → Summary.ofHistory h = .error .overflow
  totals : trials ≠ [] → (∀ t ∈ trials, t.isStored = true) →
    ∃ s, Summary.ofHistory h = .ok (some s) ∧ s.totalTests = trials.length ∧
      s.totalPassed + s.totalFailed = s.totalTests ∧
      s.totalFailed = h.failures.size + trials.countP (·.metrics.numFailures < 0)

/-- A trial that has not passed failed in some elements or in fewer than none. -/
theorem Kept.countP_not_passed (hh : Kept trials h)
    (hstored : ∀ t ∈ trials, t.isStored = true) :
    h.results.toList.countP (!·.passed) =
      h.failures.size + trials.countP (·.metrics.numFailures < 0) := by
  have hsplit : ∀ t ∈ trials, (!t.result.passed) = true ↔
      (decide (0 < t.metrics.numFailures) || decide (t.metrics.numFailures < 0)) = true := by
    intro t _
    simp [Submission.result, Metrics.passed]
    omega
  have hfailures : h.failures.size = trials.countP (0 < ·.metrics.numFailures) := by
    rw [← Array.length_toList, hh.failures_eq, hh.results_of_stored hstored,
      ← List.countP_eq_length_filter, List.countP_map]
    rfl
  rw [hh.results_of_stored hstored, List.countP_map, Function.comp_def, List.countP_congr hsplit,
    hfailures]
  refine countP_or (fun t hfail ↦ ?_) trials
  have hpos : 0 < t.metrics.numFailures := by simpa using hfail
  simpa using hpos.le

theorem Kept.tallied (hh : Kept trials h) (hpos : ∀ t ∈ trials, 0 < t.metrics.totalElements) :
    Tallied trials h where
  empty hnil := by
    have hmetrics := hh.metrics_eq
    rw [hnil] at hmetrics
    rw [Summary.ofHistory, if_pos (by simpa using hmetrics)]
    rfl
  overflow := by
    rintro ⟨t, ht, hstored⟩
    have hrates : h.metrics.toList.mapM Summary.rate = .error .overflow := by
      rw [hh.rates_eq]
      refine mapM_error (fun t' ht' e' he' ↦ ?_) ⟨t, ht, ?_⟩
      · rw [rate_submission (hpos t' ht')] at he'
        split_ifs at he'
        cases he'
        rfl
      · rw [rate_submission (hpos t ht), hstored]
        rfl
    have hsome : ¬ h.metrics.isEmpty = true := by
      have hne := List.ne_nil_of_mem (List.mem_map_of_mem (f := (·.metrics)) ht)
      rw [← hh.metrics_eq] at hne
      simpa using hne
    rw [Summary.ofHistory, if_neg hsome]
    dsimp only
    rw [hrates]
    rfl
  totals hne hstored := by
    have hrates : h.metrics.toList.mapM Summary.rate =
        .ok (trials.map (·.metrics.failureRate)) := by
      rw [hh.rates_eq]
      refine mapM_ok fun t ht ↦ ?_
      rw [rate_submission (hpos t ht), if_pos (hstored t ht)]
    have hmetrics : h.metrics.toList ≠ [] := by simpa [hh.metrics_eq] using hne
    obtain ⟨s, hs, htotal, hpassed, hfailed⟩ := Summary.ofHistory_of_rates hmetrics hrates
    have hlength : s.totalTests = trials.length := by rw [htotal, hh.metrics_eq, List.length_map]
    have hle : s.totalFailed ≤ s.totalTests := by
      have hcount := List.countP_le_length (p := fun r : Record ↦ !r.passed) (l := h.results.toList)
      rw [← hfailed, hh.results_of_stored hstored, List.length_map, ← hlength] at hcount
      exact hcount
    rw [hh.countP_not_passed hstored] at hfailed
    exact ⟨s, hs, hlength, by omega, hfailed⟩

/-- What the containers of a history hold after any sequence of trials, and how the summaries count
these trials. -/
theorem recordAll_bookkeeping (trials : List Submission) :
    ∃ h, (recordAll trials).run {} = (trials.map (·.outcome), h) ∧
      h.metrics.toList = trials.map (·.metrics) ∧
      h.results.toList = (trials.filter (·.isStored)).map (·.result) ∧
      ((∀ t ∈ trials, t.isStored = true) →
        h.results.toList.map (·.metrics) = h.metrics.toList) ∧
      h.failures.toList = h.results.toList.filter (0 < ·.metrics.numFailures) ∧
      Partition (trials.filterMap (·.addition?)) h.byConfig ∧
      ((Report.configSummaries h).map (·.2.numTrials)).sum = trials.countP (·.addition?.isSome) ∧
      ((∀ t ∈ trials, 0 < t.metrics.totalElements) → Tallied trials h) := by
  obtain ⟨h, hrun, hkept⟩ := kept_nil.recordAll trials
  rw [List.nil_append] at hkept
  have hgroups : Partition (trials.filterMap (·.addition?)) h.byConfig := by
    rw [hkept.byConfig_eq]
    refine partition_grouped fun e he ↦ ?_
    obtain ⟨t, -, hadds⟩ := List.mem_filterMap.1 he
    exact Submission.isComposite_of_addition hadds
  refine ⟨h, hrun, hkept.metrics_eq, hkept.results_eq, fun hstored ↦ ?_, hkept.failures_eq, hgroups,
    ?_, hkept.tallied⟩
  · rw [hkept.results_of_stored hstored, List.map_map, hkept.metrics_eq]
    rfl
  · rw [hgroups.sum_numTrials, List.length_filterMap_eq_countP]

def trialOf (failures : Int) (origin? : Option (List (String × Value))) : Submission where
  metrics :=
    { maxAbsError := .ofInt 1
      meanAbsError := .ofInt 1
      numFailures := failures
      totalElements := 8
      worstPosition := (0, 0)
      scale := .ofInt 1
      zeroPoint := 0 }
  origin?

/-- The share of failed elements of this trial is past the largest number. -/
def hugeTrial : Submission := trialOf (1 <<< 1027 : Nat) none

def listedTrial : Submission := trialOf 0 (some [("config", .list [.int 1])])

def mixedTrials : List Submission :=
  [trialOf 2 (some [("config", .text "a")]), trialOf 0 none, trialOf (-1) (some []),
    trialOf 0 (some [("config", .text "b")]), trialOf 3 (some [("config", .text "a")])]

theorem recordAll_bookkeeping_mixed :
    (∃ h s, (recordAll mixedTrials).run {} = (mixedTrials.map (·.outcome), h) ∧
      h.results.toList.map (·.metrics) = h.metrics.toList ∧
      ((Report.configSummaries h).map (·.2.numTrials)).sum = 3 ∧
      Summary.ofHistory h = .ok (some s) ∧ s.totalTests = 5 ∧
      s.totalPassed + s.totalFailed = s.totalTests ∧ s.totalFailed = h.failures.size + 1) ∧
    (∃ h, (recordAll []).run {} = ([], h) ∧ Summary.ofHistory h = .ok none) ∧
    ∃ h, (recordAll [hugeTrial]).run {} = ([.error .overflow], h) ∧
      h.metrics.size = 1 ∧ h.results.size = 0 ∧ Summary.ofHistory h = .error .overflow := by
  refine ⟨?_, ?_, ?_⟩
  · obtain ⟨h, hrun, -, -, hsame, -, -, hsum, htallied⟩ := recordAll_bookkeeping mixedTrials
    have hstored : ∀ t ∈ mixedTrials, t.isStored = true := by decide +kernel
    obtain ⟨s, hs, htotal, hadd, hfailed⟩ :=
      (htallied (by decide)).totals (List.cons_ne_nil _ _) hstored
    refine ⟨h, s, hrun, hsame hstored, ?_, hs, htotal, hadd, hfailed⟩
    rw [hsum]
    decide +kernel
  · obtain ⟨h, hrun, -, -, -, -, -, -, htallied⟩ := recordAll_bookkeeping []
    exact ⟨h, hrun, (htallied (by simp)).empty rfl⟩
  · obtain ⟨h, hrun, hmetrics, hresults, -, -, -, -, htallied⟩ :=
      recordAll_bookkeeping [hugeTrial]
    have hunstored : hugeTrial.isStored = false := by decide +kernel
    have hoverflow := (htallied (by decide)).overflow ⟨_, List.mem_singleton_self _, hunstored⟩
    refine ⟨h, ?_, ?_, ?_, hoverflow⟩
    · simpa [Submission.outcome, hunstored] using hrun
    · simpa using congrArg List.length hmetrics
    · simpa [hunstored] using congrArg List.length hresults

/-- A share past the largest number, a negative number of failures and a list as configuration each
leave a trial out of some container, and the summary of no trials counts nothing. -/
theorem recordAll_unaccounted :
    (recorded [hugeTrial]).results.size ≠ (recorded [hugeTrial]).metrics.size ∧
    ((Summary.ofHistory (recorded [trialOf (-1) none])).toOption.map
        fun s? ↦ s?.map fun s ↦ (s.totalFailed, (recorded [trialOf (-1) none]).failures.size)) =
      some (some (1, 0)) ∧
    (listedTrial.config?.isSome ∧ (recorded [listedTrial]).results.size = 1 ∧
      (recorded [listedTrial]).byConfig.length = 0) ∧
    (Summary.ofHistory (recorded [])).toOption = some none := by
  decide +kernel

end History

end Depthwise
