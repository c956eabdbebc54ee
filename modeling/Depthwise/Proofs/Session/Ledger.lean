import Depthwise.Proofs.Session.Stages

namespace Depthwise.Session

/-- How a trial ends, with the metrics of a trial that has been recorded by then. -/
inductive Ending where
  | returned (m : Metrics)
  | exceeded (m : Metrics) (x c : Nat) (expected : Double) (observed : Int)
  | corrupted (m : Metrics) (place : Int)
  | stopped (e : Error)

namespace Ending

def result (index seed : Int) : Ending → Except Error Metrics
  | returned m => .ok m
  | exceeded _ x c e o =>
    .error (Failure.raise ⟨.toleranceExceeded x c e o Affine.tolerance, some index, some seed⟩)
  | corrupted _ place => .error (Failure.raise ⟨.outputCorrupted place, some index, some seed⟩)
  | stopped e => .error e

def record? (config : Config) (index seed : Int) : Ending → Option Record
  | returned m => some ⟨m, originIn config index seed, true⟩
  | exceeded m .. => some ⟨m, originIn config index seed, false⟩
  | corrupted m _ => some ⟨m, originIn config index seed, true⟩
  | stopped _ => none

def Placed (config : Config) : Ending → Prop
  | exceeded _ x c _ o => config.Describable ∧ x < config.width.toNat ∧
    c < config.channels.toNat ∧ |o| ≤ 255
  | _ => True

def isReturned : Ending → Bool
  | returned _ => true
  | _ => false

def isExceeded : Ending → Bool
  | exceeded .. => true
  | _ => false

def isCorrupted : Ending → Bool
  | corrupted .. => true
  | _ => false

end Ending

def Quiet {σ α : Type} (r : Run σ α) : Prop :=
  ∀ s, (r.run.run s).2.seed = s.seed ∧ (r.run.run s).2.history = s.history

structure Entered (record? : Option Record) (before after : History) : Prop where
  results_eq : after.results.toList = before.results.toList ++ record?.toList
  collected : before.Collected → after.Collected

/-- A computation that records its trial as its ending says. -/
def Books {σ : Type} (config : Config) (index seed : Int) (r : Run σ Metrics) : Prop :=
  ∀ s : Session σ, s.seed = seed → ∃ (ending : Ending) (s' : Session σ),
    r.run.run s = (ending.result index seed, s') ∧ s'.seed = seed ∧
      Entered (ending.record? config index seed) s.history s'.history ∧ ending.Placed config

variable {σ α : Type} {config : Config} {index seed : Int}

theorem Entered.none (h : History) : Entered none h h := ⟨(List.append_nil _).symm, id⟩

section Quiet

theorem quiet_get : Quiet (get : Run σ (Session σ)) := fun _ ↦ ⟨rfl, rfl⟩

theorem quiet_liftM (x : Except Error α) : Quiet (liftM x : Run σ α) := fun _ ↦ ⟨rfl, rfl⟩

theorem quiet_call (c : Collaboration σ α) : Quiet (call c) := fun _ ↦ ⟨rfl, rfl⟩

theorem quiet_draw (d : Drawing α) : Quiet (draw d : Run σ α) := fun _ ↦ ⟨rfl, rfl⟩

theorem quiet_runKernel (bench : Bench σ) (t : Trial) (params : FixedPoint.Params) :
    Quiet (runKernel bench config t params) := by
  intro s
  rw [runKernel_run bench rfl]
  exact ⟨rfl, rfl⟩

end Quiet

/-- What precedes the recording may fail, but it records nothing. -/
theorem Books.bind {x : Run σ α} {f : α → Run σ Metrics} (hx : Quiet x)
    (hf : ∀ s a s', s.seed = seed → x.run.run s = (.ok a, s') → Books config index seed (f a)) :
    Books config index seed (x >>= f) := by
  intro s hseed
  obtain ⟨hseed', hhistory⟩ := hx s
  rcases hrun : x.run.run s with ⟨e | a, s'⟩
  · rw [hrun] at hseed' hhistory
    refine ⟨.stopped e, s', run_bind_error hrun, hseed'.trans hseed, ?_, trivial⟩
    rw [← hhistory]
    exact .none _
  · rw [hrun] at hseed' hhistory
    obtain ⟨ending, s'', hrest, hseed'', hentered⟩ := hf s a s' hseed hrun s' (hseed'.trans hseed)
    rw [← hhistory]
    exact ⟨ending, s'', (run_bind_ok hrun).trans hrest, hseed'', hentered⟩

theorem entered_enter {m : Metrics} {passed : Bool} (hm : m.Counted) (hpassed : m.passed = passed)
    (info : List (String × Report.Value)) (name : String) (h : History) :
    Entered (some ⟨m, info, passed⟩) h (h.enter m info name) := by
  subst hpassed
  exact ⟨History.results_enter, fun hh ↦ hh.enter hm⟩

section Comparison

variable {padding : List (Int × UInt8)} {written : Bytes}

theorem placed_of_firstExceeding {output : Affine}
    (hzero : 0 ≤ output.zeroPoint ∧ output.zeroPoint ≤ 255) {rows : List (List UInt8)}
    (hrows : Output.rows config.toSettings written = .ok rows) {expected : List (List Double)}
    {x c : Nat} {e : Double} {o : Int} (h : firstExceeding expected
      (rows.map (·.map fun code ↦ (code.toNat : Int) - output.zeroPoint)) = some (x, c, e, o)) :
    x < config.width.toNat ∧ c < config.channels.toNat ∧ |o| ≤ 255 := by
  obtain ⟨hwidth, hchannels⟩ := Output.shape_of_rows hrows
  obtain ⟨codes, hcodes, hcode⟩ := exists_of_firstExceeding h
  rw [List.getElem?_map, Option.map_eq_some_iff] at hcodes
  obtain ⟨row, hrow, rfl⟩ := hcodes
  rw [List.getElem?_map, Option.map_eq_some_iff] at hcode
  obtain ⟨code, hcell, rfl⟩ := hcode
  have hbyte := code.toNat_lt
  have hx := (List.getElem?_eq_some_iff.1 hrow).1
  have hc := (List.getElem?_eq_some_iff.1 hcell).1
  rw [hchannels row (List.mem_of_getElem? hrow)] at hc
  exact ⟨hwidth ▸ hx, hc, abs_le.2 ⟨by omega, by omega⟩⟩

/-- A comparison records its trial as failed exactly when a code is past the tolerance. -/
theorem books_compare (hread : ∀ a ∈ padding, ∃ b, Output.readByte written a.1 = .ok b)
    {output : Affine} (hzero : 0 ≤ output.zeroPoint ∧ output.zeroPoint ≤ 255)
    (accs : List (List Int)) :
    Books config index seed
      (compare config index seed padding output accs written : Run σ Metrics) := by
  intro s hseed
  rcases hrows : Output.rows config.toSettings written with e | rows
  · exact ⟨.stopped e, s, run_bind_error (run_liftM_error hrows s), hseed, .none _, trivial⟩
  rcases hm : Metrics.compute (accs.map (·.map (output.expected config.qmin config.qmax)))
      (rows.map (·.map fun code ↦ (code.toNat : Int) - output.zeroPoint)) Affine.tolerance
      output.scale output.zeroPoint with e | m
  · exact ⟨.stopped (.fault e), s, (run_bind_ok (run_liftM_ok hrows s)).trans
      (run_bind_error (run_liftM_fault_error hm s)), hseed, .none _, trivial⟩
  by_cases hdescribe : config.Describable
  swap
  · exact ⟨.stopped (.fault .unusableValue), s,
      compare_undescribed hrows hm hdescribe index seed padding s, hseed, .none _, trivial⟩
  have hrun := compare_recorded hrows hm hdescribe index seed padding s
  obtain ⟨hcounted, hfailures⟩ := Metrics.compute_spec hm
  have hpassed := hcounted.passed_eq_true_iff
  unfold settle at hrun
  by_cases hfail : 0 < m.numFailures
  · rw [if_pos hfail] at hrun
    rcases hfirst : firstExceeding (accs.map (·.map (output.expected config.qmin config.qmax)))
        (rows.map (·.map fun code ↦ (code.toNat : Int) - output.zeroPoint)) with
      _ | ⟨x, c, e, o⟩
    · have hnone := List.filter_eq_nil_iff.2 fun d hd ↦
        Bool.eq_false_iff.1 (lt_eq_false_of_firstExceeding hfirst d hd)
      rw [hnone] at hfailures
      exact absurd hfail (by rw [hfailures]; decide)
    · rw [hfirst] at hrun
      exact ⟨.exceeded m x c e o, _, hrun, hseed, entered_enter hcounted
        (Bool.eq_false_iff.2 fun h ↦ hpassed.1 h hfail) _ _ _, hdescribe,
        placed_of_firstExceeding hzero hrows hfirst⟩
  · rw [if_neg hfail] at hrun
    obtain ⟨place?, hchanged⟩ := Output.exists_firstChanged_ok hread
    rw [hchanged] at hrun
    have hentered := entered_enter hcounted (hpassed.2 hfail) (originIn config index seed)
      (Text.plain config.description) s.history
    cases place? with
    | none => exact ⟨.returned m, _, hrun, hseed, hentered, trivial⟩
    | some place => exact ⟨.corrupted m place, _, hrun, hseed, hentered, trivial⟩

end Comparison

theorem zeroPoint_of_call_derive {vector scalar : ParamsRoutine σ} {accs : List Int}
    {qmin qmax : Int} {params : Parameters} {s s' : Session σ}
    (h : (call (Parameters.derive vector scalar accs qmin qmax)).run.run s = (.ok params, s')) :
    0 ≤ params.output.zeroPoint ∧ params.output.zeroPoint ≤ 255 := by
  have hderive : (Parameters.derive vector scalar accs qmin qmax).run.run s.outside =
      (.ok params, s'.outside) :=
    Prod.ext (congrArg (·.1) h) (congrArg (·.2.outside) h)
  exact Parameters.zeroPoint_of_derive hderive

section Trials

variable {bench : Bench σ} (hkernel : bench.kernel.KeepsSize)

include hkernel

theorem size_of_runKernel {t : Trial} {params : FixedPoint.Params} {left : Buffers}
    {s s' : Session σ} (h : (runKernel bench config t params).run.run s = (.ok left, s')) :
    left.output.size = t.buffers.output.size := by
  rcases hrun : (bench.kernel.run (kernelCall config t params)).run s.outside with
    ⟨outcome, after⟩
  have hsize := hkernel (kernelCall config t params) s.outside
  rw [hrun] at hsize
  rw [runKernel_run bench hrun] at h
  rcases herror : outcome.error? with _ | e
  · rw [herror] at h
    cases h
    exact hsize
  · rw [herror] at h
    cases h

theorem books_examine (t : Trial) : Books config index seed (examine bench config index t) := by
  refine .bind quiet_get fun s a s' hseed hget ↦ ?_
  cases hget
  subst hseed
  refine .bind (quiet_liftM _) fun _ _ _ _ _ ↦ ?_
  refine .bind (quiet_liftM _) fun _ _ _ _ _ ↦ ?_
  refine .bind (quiet_liftM _) fun _ padding _ _ hpadding ↦ ?_
  refine .bind (quiet_call _) fun _ packed _ _ _ ↦ ?_
  refine .bind (quiet_liftM _) fun _ accs _ _ _ ↦ ?_
  refine .bind (quiet_liftM _) fun _ _ _ _ _ ↦ ?_
  refine .bind (quiet_call _) fun s params _ _ hparams ↦ ?_
  refine .bind (quiet_runKernel bench _ _) fun _ left _ _ hleft ↦ ?_
  have hsize := size_of_runKernel hkernel hleft
  exact books_compare
    (Output.exists_readByte_of_padding (eq_ok_of_run_liftM hpadding) hsize)
    (zeroPoint_of_call_derive hparams) _

theorem books_runTrial : Books config index seed (runTrial bench config index) :=
  .bind (quiet_draw _) fun _ t _ _ _ ↦ books_examine hkernel t

end Trials

structure TrialCall (σ : Type) where
  bench : Bench σ
  config : Config
  index : Int

/-- Runs trials one after another, the next one also after a failure. -/
def runTrials (calls : List (TrialCall σ)) : Run σ (List (Except Error Metrics)) :=
  calls.mapM fun call ↦ attempt (runTrial call.bench call.config call.index)

/-- After any trials the history has taken in what their endings leave on record, in order. -/
theorem runTrials_books {calls : List (TrialCall σ)}
    (hkernels : ∀ call ∈ calls, call.bench.kernel.KeepsSize) (s : Session σ) :
    ∃ (ledger : List (TrialCall σ × Ending)) (s' : Session σ), ledger.map (·.1) = calls ∧
      (runTrials calls).run.run s = (.ok (ledger.map fun a ↦ a.2.result a.1.index s.seed), s') ∧
      s'.history.results.toList = s.history.results.toList ++
        ledger.filterMap (fun a ↦ a.2.record? a.1.config a.1.index s.seed) ∧
      (s.history.Collected → s'.history.Collected) := by
  induction calls generalizing s with
  | nil => exact ⟨[], s, rfl, rfl, (List.append_nil _).symm, id⟩
  | cons call rest ih =>
    have hbooks : Books call.config call.index s.seed
        (runTrial call.bench call.config call.index) :=
      books_runTrial (hkernels call List.mem_cons_self)
    obtain ⟨ending, s', hrun, hseed, hentered, -⟩ := hbooks s rfl
    obtain ⟨ledger, s'', rfl, hrest, hresults, hcollected⟩ :=
      ih (fun call' hcall' ↦ hkernels call' (List.mem_cons_of_mem _ hcall')) s'
    rw [hseed] at hrest hresults
    refine ⟨(call, ending) :: ledger, s'', rfl, ?_, ?_, hcollected ∘ hentered.collected⟩
    · have hattempt : (attempt (runTrial call.bench call.config call.index)).run.run s =
          (.ok (ending.result call.index s.seed), s') :=
        congrArg (fun r : Except Error Metrics × Session σ ↦ (Except.ok r.1, r.2)) hrun
      rw [runTrials, List.mapM_cons]
      exact (run_bind_ok hattempt).trans (run_bind_ok hrest)
    · rw [hresults, hentered.results_eq, List.append_assoc, List.filterMap_cons]
      cases ending.record? call.config call.index s.seed <;> rfl

namespace Ending

variable (ending : Ending) (config : Config) (index seed : Int)

theorem isOk_result : (ending.result index seed).isOk = ending.isReturned := by
  cases ending <;> rfl

theorem passed_record? : ((ending.record? config index seed).map (·.passed)).getD false =
    (ending.isReturned || ending.isCorrupted) := by
  cases ending <;> rfl

theorem not_passed_record? : ((ending.record? config index seed).map (!·.passed)).getD false =
    ending.isExceeded := by
  cases ending <;> rfl

theorem not_isCorrupted (h : ending.isReturned = true) : ¬ ending.isCorrupted = true := by
  cases ending <;> cases h
  exact Bool.false_ne_true

theorem returns_iff_passed (h : ending.isCorrupted = false) :
    (∃ m, ending.result index seed = .ok m) ↔
      ∃ r, ending.record? config index seed = some r ∧ r.passed = true := by
  cases ending with
  | returned m => exact iff_of_true ⟨m, rfl⟩ ⟨_, rfl, rfl⟩
  | exceeded => simp [result, record?]
  | corrupted => cases h
  | stopped => simp [result, record?]

end Ending

section Counts

variable (ledger : List (TrialCall σ × Ending)) (seed : Int)

theorem countP_passed : (ledger.filterMap fun a ↦ a.2.record? a.1.config a.1.index seed).countP
    (·.passed) = ledger.countP (·.2.isReturned) + ledger.countP (·.2.isCorrupted) := by
  rw [List.countP_filterMap]
  simp only [Ending.passed_record?]
  exact countP_or (fun a ↦ a.2.not_isCorrupted) ledger

theorem countP_not_passed : (ledger.filterMap fun a ↦ a.2.record? a.1.config a.1.index seed).countP
    (!·.passed) = ledger.countP (·.2.isExceeded) := by
  rw [List.countP_filterMap]
  simp only [Ending.not_passed_record?]

end Counts

/-- A new session records the calls that return as passed, those past the tolerance as failed, and
those whose padding check fails as passed too. Unless there are such, the records that say passed
are those of the calls that return, and the summary counts these calls. -/
theorem runTrials_ledger {seed : Int} {outside : σ} {s : Session σ}
    (hstart : start seed outside = .ok s) {calls : List (TrialCall σ)}
    (hkernels : ∀ call ∈ calls, call.bench.kernel.KeepsSize) :
    ∃ (ledger : List (TrialCall σ × Ending)) (s' : Session σ) (summary? : Option Report.Summary),
      ledger.map (·.1) = calls ∧
      (runTrials calls).run.run s = (.ok (ledger.map fun a ↦ a.2.result a.1.index seed), s') ∧
      s'.history.results.toList =
        ledger.filterMap (fun a ↦ a.2.record? a.1.config a.1.index seed) ∧
      Report.Summary.ofHistory s'.history = .ok summary? ∧
      (summary? = none ↔ s'.history.results.toList = []) ∧
      (∀ summary ∈ summary?,
        summary.totalPassed =
          ledger.countP (·.2.isReturned) + ledger.countP (·.2.isCorrupted) ∧
        summary.totalFailed = ledger.countP (·.2.isExceeded)) ∧
      ((∀ a ∈ ledger, a.2.isCorrupted = false) →
        (∀ a ∈ ledger, (∃ m, a.2.result a.1.index seed = .ok m) ↔
          ∃ r, a.2.record? a.1.config a.1.index seed = some r ∧ r.passed = true) ∧
        ∀ summary ∈ summary?,
          summary.totalPassed = ledger.countP fun a ↦ (a.2.result a.1.index seed).isOk) := by
  obtain ⟨hseed, hhistory⟩ : s.seed = seed ∧ s.history = {} := by
    rw [start] at hstart
    split_ifs at hstart
    cases hstart
    exact ⟨rfl, rfl⟩
  obtain ⟨ledger, s', hcalls, hrun, hresults, hcollected⟩ := runTrials_books hkernels s
  rw [hseed] at hrun hresults
  rw [hhistory] at hresults hcollected
  obtain ⟨summary?, hsummary, hnone, hcounts⟩ :=
    Report.Summary.ofHistory_collected (hcollected History.collected_empty)
  have hledger : s'.history.results.toList =
      ledger.filterMap (fun a ↦ a.2.record? a.1.config a.1.index seed) := hresults
  rw [hledger, countP_passed, countP_not_passed] at hcounts
  refine ⟨ledger, s', summary?, hcalls, hrun, hledger, hsummary, hnone, hcounts, fun hkept ↦
    ⟨fun a ha ↦ a.2.returns_iff_passed _ _ _ (hkept a ha), fun summary hmem ↦ ?_⟩⟩
  have hcorrupted : ledger.countP (·.2.isCorrupted) = 0 :=
    List.countP_eq_zero.2 fun a ha ↦ Bool.eq_false_iff.1 (hkept a ha)
  rw [(hcounts summary hmem).1, hcorrupted, Nat.add_zero]
  simp only [Ending.isOk_result]

def paddedConfig : Config := ⟨{ width := 2, outputStride := 2 }, by decide⟩

def spillingKernel : Kernel Unit where
  name := "spilling"
  run call := pure ⟨{ call.buffers with
    output := ((call.buffers.output.setIfInBounds 0 123).setIfInBounds 1 0).setIfInBounds 2 133 },
    none⟩

/-- A trial whose accumulators are 0 and 10, with the codes 123 and 133. -/
def spillingCall : TrialCall Unit where
  bench := { Bench.ofKernel spillingKernel with
    script := {
      input? := some fun _ ↦ .ok #[0, 0, 0, 0, 0, 0, 0, 0, 127, 137]
      weights? := some fun _ ↦ .ok #[128]
      bias? := some fun _ ↦ .ok #[0]
      output? := some fun _ ↦ .ok #[7, 7, 7]
      order? := some .identity } }
  config := paddedConfig
  index := 0

def spillingSession : Session Unit where
  seed := 9
  stream := .ofSeed 9
  outside := ()

theorem runTrials_ledger_spilling :
    ∃ (ledger : List (TrialCall Unit × Ending)) (s' : Session Unit)
      (summary? : Option Report.Summary), ledger.map (·.1) = [spillingCall] ∧
      (runTrials [spillingCall]).run.run spillingSession =
        (.ok (ledger.map fun a ↦ a.2.result a.1.index 9), s') ∧
      Report.Summary.ofHistory s'.history = .ok summary? ∧
      ∀ summary ∈ summary?, summary.totalPassed =
        ledger.countP (·.2.isReturned) + ledger.countP (·.2.isCorrupted) := by
  have hstart : start 9 () = .ok spillingSession := rfl
  have hkernels : ∀ call ∈ [spillingCall], call.bench.kernel.KeepsSize := by
    intro call hcall
    obtain rfl := List.mem_singleton.1 hcall
    intro call state
    change (((call.buffers.output.setIfInBounds 0 123).setIfInBounds 1 0).setIfInBounds 2
      133).size = call.buffers.output.size
    simp only [Array.size_setIfInBounds]
  obtain ⟨ledger, s', summary?, hcalls, hrun, -, hsummary, -, hcounts, -⟩ :=
    runTrials_ledger hstart hkernels
  exact ⟨ledger, s', summary?, hcalls, hrun, hsummary, fun summary h ↦ (hcounts summary h).1⟩

/-- The call fails, its record says that it passed, and so says the summary. -/
theorem runTrials_spillingCall :
    ((runTrials [spillingCall]).run.run spillingSession).1 =
        .ok [.error (.failure ⟨.outputCorrupted 1, some 0, some 9⟩)] ∧
      ((runTrials [spillingCall]).run.run spillingSession).2.history.results.toList.map
        (·.passed) = [true] ∧
      (Report.Summary.ofHistory
        ((runTrials [spillingCall]).run.run spillingSession).2.history).map
          (·.map fun summary ↦ (summary.totalPassed, summary.totalFailed)) = .ok (some (1, 0)) := by
  decide +kernel

end Depthwise.Session
