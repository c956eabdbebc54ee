import Depthwise.Proofs.Session.Detection
import Depthwise.Proofs.Session.Reached

namespace Depthwise.Session

variable {σ α β : Type}

/-- Two sessions that a trial cannot tell apart. -/
structure Agree (s s' : Session σ) : Prop where
  seed_eq : s'.seed = s.seed
  stream_eq : s'.stream = s.stream
  outside_eq : s'.outside = s.outside

/-- A computation that does the same in all sessions that agree. -/
def Blind (x : Run σ α) : Prop :=
  ∀ s s', Agree s s' → (x.run.run s').1 = (x.run.run s).1 ∧ Agree (x.run.run s).2 (x.run.run s').2

namespace Blind

theorem pure (a : α) : Blind (Pure.pure a : Run σ α) := fun _ _ h ↦ ⟨rfl, h⟩

theorem liftM (x : Except Error α) : Blind (MonadLiftT.monadLift x : Run σ α) :=
  fun _ _ h ↦ ⟨rfl, h⟩

theorem bind {x : Run σ α} {f : α → Run σ β} (hx : Blind x) (hf : ∀ a, Blind (f a)) :
    Blind (x >>= f) := by
  intro s s' h
  obtain ⟨hresult, hagree⟩ := hx s s' h
  rcases hrun : x.run.run s with ⟨r, after⟩
  rcases hrun' : x.run.run s' with ⟨r', after'⟩
  rw [hrun, hrun'] at hresult hagree
  obtain rfl : r' = r := hresult
  cases r' with
  | error e =>
    rw [run_bind_error hrun, run_bind_error hrun']
    exact ⟨rfl, hagree⟩
  | ok a =>
    rw [run_bind_ok hrun, run_bind_ok hrun']
    exact hf a _ _ hagree

/-- A computation may look at its session where it only takes the seed from it. -/
theorem get_bind {f : Session σ → Run σ α} (hf : ∀ s, Blind (f s))
    (hseed : ∀ s s' : Session σ, s'.seed = s.seed → f s' = f s) :
    Blind ((get : Run σ (Session σ)) >>= f) := by
  intro s s' h
  rw [run_bind_ok (run_get s), run_bind_ok (run_get s'), hseed s s' h.seed_eq]
  exact hf s s s' h

theorem draw (d : Drawing α) : Blind (Session.draw d : Run σ α) := by
  rintro s s' ⟨hseed, hstream, houtside⟩
  change (d.run.run s'.stream).1 = (d.run.run s.stream).1 ∧
    Agree { s with stream := (d.run.run s.stream).2 } { s' with stream := (d.run.run s'.stream).2 }
  rw [hstream]
  exact ⟨rfl, hseed, rfl, houtside⟩

theorem call (c : Collaboration σ α) : Blind (Session.call c) := by
  rintro s s' ⟨hseed, hstream, houtside⟩
  change (c.run.run s'.outside).1 = (c.run.run s.outside).1 ∧
    Agree { s with outside := (c.run.run s.outside).2 }
      { s' with outside := (c.run.run s'.outside).2 }
  rw [houtside]
  exact ⟨rfl, hseed, hstream, rfl⟩

theorem collect {f : Nat → Run σ α} (hf : ∀ i, Blind (f i)) (first count : Nat) :
    Blind (Counting.collect f first count) := by
  induction count generalizing first with
  | zero => exact .pure []
  | succ count ih => exact .bind (hf first) fun _ ↦ .bind (ih (first + 1)) fun _ ↦ .pure _

end Blind

section Trial

variable (bench : Bench σ) (config : Config) (index : Int)

theorem blind_runKernel (t : Trial) (params : FixedPoint.Params) :
    Blind (runKernel bench config t params) := by
  refine .bind (.call _) fun outcome ↦ ?_
  cases outcome.error? with
  | none => exact .pure _
  | some e => exact .liftM (.error e)

theorem blind_compare (seed : Int) (padding : List (Int × UInt8)) (output : Affine)
    (accs : List (List Int)) (written : Bytes) :
    Blind (compare config index seed padding output accs written : Run σ Metrics) := by
  rintro s s' ⟨hseed, hstream, houtside⟩
  rcases compare_cases config index seed padding output accs written with
    ⟨e, hrun⟩ | ⟨m, r, hrun⟩
  all_goals
    rw [hrun, hrun]
    exact ⟨rfl, hseed, hstream, houtside⟩

theorem blind_examine (t : Trial) : Blind (examine bench config index t) := by
  refine .get_bind (fun s ↦ ?_) fun s s' hseed ↦ by rw [hseed]
  refine .bind (.liftM _) fun _ ↦ ?_
  refine .bind (.liftM _) fun _ ↦ ?_
  refine .bind (.liftM _) fun padding ↦ ?_
  refine .bind (.call _) fun packed ↦ ?_
  refine .bind (.liftM _) fun accs ↦ ?_
  refine .bind (.liftM _) fun _ ↦ ?_
  refine .bind (.call _) fun params ↦ ?_
  refine .bind (blind_runKernel bench config _ _) fun left ↦ ?_
  exact blind_compare config index s.seed _ _ _ _

theorem blind_runTrial : Blind (runTrial bench config index) :=
  .bind (.draw _) fun t ↦ blind_examine bench config index t

theorem blind_test : Blind (test bench config) :=
  .collect (fun i ↦ blind_runTrial bench config i) 0 _

end Trial

/-- A failure of a test comes again in a new session with the seed that it names once the stream of
the new session is brought to where the test began, and at once if it is there already. -/
theorem test_regenerates {bench : Bench Unit} {config : Config} {seed : Int} {s : Session Unit}
    (hs : Reached bench seed s) {x c o index : Int} {e tolerance : Double}
    (hraised : ((test bench config).run.run s).1 =
      .error (.failure ⟨.toleranceExceeded x c e o tolerance, some index, some seed⟩)) :
    ∃ fresh, start seed () = .ok fresh ∧
      ((test bench config).run.run { fresh with stream := s.stream }).1 =
        .error (.failure ⟨.toleranceExceeded x c e o tolerance, some index, some seed⟩) ∧
      (s.stream = fresh.stream → ((test bench config).run.run fresh).1 =
        .error (.failure ⟨.toleranceExceeded x c e o tolerance, some index, some seed⟩)) := by
  have hagain : ∀ s', Agree s s' → ((test bench config).run.run s').1 =
      .error (.failure ⟨.toleranceExceeded x c e o tolerance, some index, some seed⟩) :=
    fun s' hagree ↦ (blind_test bench config s s' hagree).1.trans hraised
  exact ⟨_, start_eq_ok_iff.2 ⟨hs.seed_nonneg, rfl⟩, hagain _ ⟨hs.seed_eq.symm, rfl, rfl⟩,
    fun hstream ↦ hagain _ ⟨hs.seed_eq.symm, hstream.symm, rfl⟩⟩

def unitConfig : Config := ⟨{}, by decide⟩

def firstSession : Session Unit where
  seed := 9
  stream := .ofSeed 9
  outside := ()

theorem start_firstSession : start 9 () = .ok firstSession := rfl

def secondSession : Session Unit :=
  (Request.test unitConfig).leave (Bench.ofKernel idleKernel) firstSession

theorem reached_secondSession : Reached (Bench.ofKernel idleKernel) 9 secondSession :=
  .after _ (.fresh start_firstSession)

theorem test_idleKernel :
    ((test (Bench.ofKernel idleKernel) unitConfig).run.run firstSession).1 = .error (.failure
      ⟨.toleranceExceeded 0 0 (.ofInt (-255)) (-52) Affine.tolerance, some 0, some 9⟩) ∧
    ((test (Bench.ofKernel idleKernel) unitConfig).run.run secondSession).1 = .error (.failure
      ⟨.toleranceExceeded 0 0 (.ofInt 255) 0 Affine.tolerance, some 0, some 9⟩) := by
  decide +kernel

/-- A test without trials draws nothing, so the failure after it comes again. The failure after a
test that draws comes again with the stream that the first test has left. -/
theorem test_regenerates_undrawn :
    ∃ fresh, start 9 () = .ok fresh ∧
      ((test (Bench.ofKernel idleKernel) unitConfig).run.run fresh).1 = .error (.failure
        ⟨.toleranceExceeded 0 0 (.ofInt (-255)) (-52) Affine.tolerance, some 0, some 9⟩) ∧
      ((test (Bench.ofKernel idleKernel) unitConfig).run.run
        { fresh with stream := secondSession.stream }).1 = .error (.failure
          ⟨.toleranceExceeded 0 0 (.ofInt 255) 0 Affine.tolerance, some 0, some 9⟩) := by
  have hidle : (Request.test ⟨{ iterations := 0 }, by decide⟩).leave (Bench.ofKernel idleKernel)
      firstSession = firstSession := rfl
  have hreached : Reached (Bench.ofKernel idleKernel) 9 firstSession :=
    hidle ▸ .after _ (.fresh start_firstSession)
  obtain ⟨hfirst, hsecond⟩ := test_idleKernel
  obtain ⟨fresh, hstart, -, hundrawn⟩ := test_regenerates hreached hfirst
  obtain ⟨fresh', hstart', hagain, -⟩ := test_regenerates reached_secondSession hsecond
  cases start_firstSession.symm.trans hstart
  cases start_firstSession.symm.trans hstart'
  exact ⟨_, hstart, hundrawn rfl, hagain⟩

/-- The same test twice in a session with the seed 9 fails twice at trial 0 and names the seed both
times, but a new session with that seed only shows the first failure again. -/
theorem test_not_regenerated :
    Reached (Bench.ofKernel idleKernel) 9 secondSession ∧
      ((test (Bench.ofKernel idleKernel) unitConfig).run.run secondSession).1 = .error (.failure
        ⟨.toleranceExceeded 0 0 (.ofInt 255) 0 Affine.tolerance, some 0, some 9⟩) ∧
      start 9 () = .ok firstSession ∧
      ((test (Bench.ofKernel idleKernel) unitConfig).run.run firstSession).1 = .error (.failure
        ⟨.toleranceExceeded 0 0 (.ofInt (-255)) (-52) Affine.tolerance, some 0, some 9⟩) ∧
      ((test (Bench.ofKernel idleKernel) unitConfig).run.run secondSession).1 ≠
        ((test (Bench.ofKernel idleKernel) unitConfig).run.run firstSession).1 := by
  obtain ⟨hfirst, hsecond⟩ := test_idleKernel
  refine ⟨reached_secondSession, hsecond, start_firstSession, hfirst, ?_⟩
  rw [hfirst, hsecond]
  simp

end Depthwise.Session
