import Depthwise.Proofs.Session.Ledger
import Depthwise.Session.Suite

namespace Depthwise.Session

inductive Request where
  | trial (config : Config) (index : Int)
  | test (config : Config)
  | scenario (kind : Scenario) (base : Config) (count : Int) (verbose : Bool)
  | suite (base : Config) (count : Int) (verbose : Bool)

variable {σ α : Type} (bench : Bench σ)

/-- The session after a request, also after one that ends with an error. -/
def Request.leave (bench : Bench σ) (request : Request) (s : Session σ) : Session σ :=
  match request with
  | trial config index => ((runTrial bench config index).run.run s).2
  | test config => ((Session.test bench config).run.run s).2
  | scenario kind base count verbose =>
    ((runScenario bench kind base count verbose).run.run s).2
  | suite base count verbose => ((runSuite bench base count verbose).run.run s).2

/-- The sessions that requests lead to from a new session with a given seed. -/
inductive Reached (seed : Int) : Session σ → Prop
  | fresh {outside : σ} {s : Session σ} (h : start seed outside = .ok s) : Reached seed s
  | after (request : Request) {s : Session σ} (h : Reached seed s) :
      Reached seed (request.leave bench s)

theorem start_eq_ok_iff {seed : Int} {outside : σ} {s : Session σ} :
    start seed outside = .ok s ↔
      0 ≤ seed ∧ s = { seed, stream := .ofSeed seed.toNat, outside } := by
  rw [start]
  split_ifs with hseed
  · exact iff_of_false (by simp) fun h ↦ by omega
  · simp only [Except.ok.injEq]
    exact ⟨fun h ↦ ⟨not_lt.1 hseed, h.symm⟩, fun h ↦ h.2.symm⟩

def Writable (lines : List (List Text.Part)) : Prop := ∀ line ∈ lines, ∀ p ∈ line, p.Short

instance (lines : List (List Text.Part)) : Decidable (Writable lines) :=
  inferInstanceAs (Decidable (∀ line ∈ lines, ∀ p ∈ line, p.Short))

/-- Printing only changes the text of a session. -/
theorem exists_say_run (lines : List (List Text.Part)) (s : Session σ) : ∃ transcript,
    (say lines : Run σ Unit).run.run s =
      (if Writable lines then .ok () else .error (.fault .unusableValue),
        { s with transcript }) := by
  induction lines generalizing s with
  | nil =>
    have hnone : Writable [] := List.forall_mem_nil _
    rw [if_pos hnone]
    exact ⟨s.transcript, rfl⟩
  | cons line rest ih =>
    have hcons : (say (line :: rest) : Run σ Unit) = sayLine line >>= fun _ ↦ say rest := rfl
    rw [hcons]
    by_cases hline : ∀ p ∈ line, p.Short
    · have hfirst : (sayLine line : Run σ Unit).run.run s =
          (.ok (), { s with transcript := s.transcript ++ Text.plain line ++ "\n" }) :=
        run_bind_ok (run_liftM_fault_ok (Text.write_ok hline) s)
      obtain ⟨transcript, hrest⟩ := ih { s with
        transcript := s.transcript ++ Text.plain line ++ "\n" }
      have hwritable : Writable (line :: rest) ↔ Writable rest :=
        List.forall_mem_cons.trans (and_iff_right hline)
      rw [run_bind_ok hfirst, hrest]
      exact ⟨transcript, by simp only [hwritable]⟩
    · have hfirst : (sayLine line : Run σ Unit).run.run s =
          (.error (.fault .unusableValue), s) :=
        run_bind_error (run_liftM_fault_error (Text.write_error hline) s)
      have hnot : ¬ Writable (line :: rest) := fun h ↦ hline (h line List.mem_cons_self)
      rw [run_bind_error hfirst, if_neg hnot]
      exact ⟨s.transcript, rfl⟩

def Recorded (I : Session σ → Prop) : Prop :=
  ∀ s s' : Session σ, s'.seed = s.seed → s'.history = s.history → I s → I s'

namespace Recorded

variable {bench} {I : Session σ → Prop} (hI : Recorded I)

include hI

theorem keeps_of_quiet {x : Run σ α} (hx : Quiet x) : Keeps I x := fun s ↦
  hI s _ (hx s).1 (hx s).2

theorem keeps_say (lines : List (List Text.Part)) : Keeps I (say lines : Run σ Unit) := by
  intro s hs
  obtain ⟨transcript, hrun⟩ := exists_say_run lines s
  rw [hrun]
  exact hI s _ rfl rfl hs

omit hI in
theorem keeps_attempt {x : Run σ α} (hx : Keeps I x) : Keeps I (attempt x) := hx

theorem keeps_sayIf (verbose : Bool) (lines : List (List Text.Part)) {rest : PUnit → Run σ α}
    (hrest : Keeps I (rest ())) :
    Keeps I (if verbose = true then say lines >>= rest else rest ()) := by
  split
  · exact .bind (hI.keeps_say lines) fun _ ↦ hrest
  · exact hrest

variable (htrial : ∀ config index, Keeps I (runTrial bench config index))

omit hI in
include htrial in
theorem keeps_test (config : Config) : Keeps I (test bench config) :=
  .collect (fun i ↦ htrial config i) 0 _

include htrial

theorem keeps_testConfig (verbose : Bool) (config : Config) :
    Keeps I (testConfig bench verbose config) := by
  refine .bind (keeps_attempt (keeps_test htrial config)) fun result ↦ ?_
  cases result with
  | ok _ => exact .pure none
  | error e =>
    refine .bind (hI.keeps_of_quiet fun _ ↦ ⟨rfl, rfl⟩) fun description ↦ ?_
    refine .bind (hI.keeps_of_quiet fun _ ↦ ⟨rfl, rfl⟩) fun listing ↦ ?_
    exact hI.keeps_sayIf verbose _ (.pure _)

theorem keeps_runScenario (scenario : Scenario) (base : Config) (count : Int) (verbose : Bool) :
    Keeps I (runScenario bench scenario base count verbose) := by
  refine .bind (hI.keeps_of_quiet (quiet_draw _)) fun configs ↦ ?_
  refine hI.keeps_sayIf verbose _ ?_
  refine .bind (.mapM fun config _ ↦ hI.keeps_testConfig htrial verbose config) fun outcomes ↦ ?_
  exact hI.keeps_sayIf verbose _ (.pure _)

theorem keeps_runSuite (base : Config) (count : Int) (verbose : Bool) :
    Keeps I (runSuite bench base count verbose) := by
  refine .bind (hI.keeps_of_quiet quiet_get) fun before ↦ ?_
  refine hI.keeps_sayIf verbose _ ?_
  refine .bind (.mapM fun scenario _ ↦ hI.keeps_runScenario htrial scenario base count verbose)
    fun scenarios ↦ ?_
  refine .bind (hI.keeps_of_quiet quiet_get) fun between ↦ ?_
  refine .bind (hI.keeps_of_quiet fun _ ↦ ⟨rfl, rfl⟩) fun summary ↦ ?_
  exact hI.keeps_sayIf verbose _ (.pure _)

/-- What every trial keeps every request keeps. -/
theorem keeps_leave (request : Request) {s : Session σ} (hs : I s) :
    I (request.leave bench s) := by
  cases request with
  | trial config index => exact htrial config index s hs
  | test config => exact keeps_test htrial config s hs
  | scenario kind base count verbose =>
    exact hI.keeps_runScenario htrial kind base count verbose s hs
  | suite base count verbose => exact hI.keeps_runSuite htrial base count verbose s hs

end Recorded

theorem recorded_seed (seed : Int) : Recorded fun s : Session σ ↦ s.seed = seed :=
  fun _ _ hseed _ hs ↦ hseed.trans hs

theorem recorded_collected : Recorded fun s : Session σ ↦ s.history.Collected :=
  fun _ _ _ hhistory hs ↦ Eq.subst (motive := History.Collected) hhistory.symm hs

section Trial

variable (config : Config) (index : Int)

theorem keeps_compare_seed (seed seed' : Int) (padding : List (Int × UInt8)) (output : Affine)
    (accs : List (List Int)) (written : Bytes) :
    Keeps (fun s : Session σ ↦ s.seed = seed)
      (compare config index seed' padding output accs written) := by
  intro s hs
  rcases compare_cases config index seed' padding output accs written with ⟨e, hrun⟩ | ⟨m, r, hrun⟩
  all_goals
    rw [hrun]
    exact hs

theorem keeps_runTrial_seed (seed : Int) :
    Keeps (fun s : Session σ ↦ s.seed = seed) (runTrial bench config index) := by
  have hquiet {α : Type} {x : Run σ α} (hx : Quiet x) :=
    (recorded_seed seed).keeps_of_quiet hx
  refine .bind (hquiet (quiet_draw _)) fun t ↦ ?_
  refine .bind (hquiet quiet_get) fun s ↦ ?_
  refine .bind (hquiet (quiet_liftM _)) fun _ ↦ ?_
  refine .bind (hquiet (quiet_liftM _)) fun _ ↦ ?_
  refine .bind (hquiet (quiet_liftM _)) fun padding ↦ ?_
  refine .bind (hquiet (quiet_call _)) fun packed ↦ ?_
  refine .bind (hquiet (quiet_liftM _)) fun accs ↦ ?_
  refine .bind (hquiet (quiet_liftM _)) fun _ ↦ ?_
  refine .bind (hquiet (quiet_call _)) fun params ↦ ?_
  refine .bind (hquiet (quiet_runKernel bench _ _)) fun left ↦ ?_
  exact keeps_compare_seed config index seed s.seed _ _ _ _

theorem keeps_runTrial_collected (hkernel : bench.kernel.KeepsSize) :
    Keeps (fun s : Session σ ↦ s.history.Collected) (runTrial bench config index) := by
  intro s hs
  obtain ⟨ending, s', hrun, -, hentered, -⟩ := books_runTrial hkernel s rfl
  rw [hrun]
  exact hentered.collected hs

end Trial

namespace Reached

variable {bench} {seed : Int} {s : Session σ}

theorem seed_nonneg (h : Reached bench seed s) : 0 ≤ seed := by
  induction h with
  | fresh hstart => exact (start_eq_ok_iff.1 hstart).1
  | after _ _ ih => exact ih

theorem seed_eq (h : Reached bench seed s) : s.seed = seed := by
  induction h with
  | fresh hstart =>
    obtain ⟨-, rfl⟩ := start_eq_ok_iff.1 hstart
    rfl
  | after request _ ih =>
    exact (recorded_seed seed).keeps_leave
      (fun config index ↦ keeps_runTrial_seed bench config index seed) request ih

/-- Whatever a session has been asked for, its history can be summarized. -/
theorem collected (hkernel : bench.kernel.KeepsSize) (h : Reached bench seed s) :
    s.history.Collected := by
  induction h with
  | fresh hstart =>
    obtain ⟨-, rfl⟩ := start_eq_ok_iff.1 hstart
    exact History.collected_empty
  | after request _ ih =>
    exact recorded_collected.keeps_leave
      (fun config index ↦ keeps_runTrial_collected bench config index hkernel) request ih

end Reached

end Depthwise.Session
