import Depthwise.Proofs.Session.Ledger
import Depthwise.Session.Suite

namespace Depthwise

def Error.excess : String := "ToleranceExceededError"

theorem Error.kind_fault_ne (f : Fault) : (Error.fault f).kind ≠ excess := by
  cases f <;> decide

theorem Failure.kind_raise_ne {f : Failure} (h : (Error.failure f).kind ≠ Error.excess) :
    f.raise.kind ≠ Error.excess := by
  rcases Error.worded_cases f.wording (.failure f) with hraise | hraise
  · rwa [Failure.raise, hraise]
  · rw [Failure.raise, hraise]
    exact Error.kind_fault_ne _

namespace Session

variable {σ : Type}

/-- A trial as it is run from one session to the next, with the way it ends. -/
structure Comes (bench : Bench σ) (config : Config) (index : Nat) (s : Session σ) (ending : Ending)
    (s' : Session σ) : Prop where
  run : (runTrial bench config index).run.run s = (ending.result index s.seed, s')
  seed_eq : s'.seed = s.seed
  entered : Entered (ending.record? config index s.seed) s.history s'.history
  placed : ending.Placed config

/-- The trials of a configuration from the number `first` on, `count` of them unless one fails. Each
trial starts where the one before it has stopped, and after the first failure there is none. -/
inductive Tries (bench : Bench σ) (config : Config) : Nat → Nat → Session σ → List Ending →
    Except Error (List Metrics) → Session σ → Prop
  | done {first s} : Tries bench config first 0 s [] (.ok []) s
  | stops {first count s ending e s'} (h : Comes bench config first s ending s')
      (he : ending.result first s.seed = .error e) :
      Tries bench config first (count + 1) s [ending] (.error e) s'
  | goesOn {first count s m s' endings result s''}
      (h : Comes bench config first s (.returned m) s')
      (rest : Tries bench config (first + 1) count s' endings result s'') :
      Tries bench config first (count + 1) s (.returned m :: endings) (result.map (m :: ·)) s''

/-- A later session with more trials on record, `failed` of them not passed. -/
structure Grows (failed : Nat) (s s' : Session σ) : Prop where
  seed_eq : s'.seed = s.seed
  results : ∃ new, s'.history.results.toList = s.history.results.toList ++ new ∧
    new.countP (!·.passed) = failed
  collected : s.history.Collected → s'.history.Collected

namespace Grows

theorem of_quiet {s s' : Session σ} (hseed : s'.seed = s.seed) (hhistory : s'.history = s.history) :
    Grows 0 s s' := by
  refine ⟨hseed, ⟨[], ?_, rfl⟩, ?_⟩
  · rw [hhistory, List.append_nil]
  · rw [hhistory]
    exact id

theorem trans {m n : Nat} {s s' s'' : Session σ} (h : Grows m s s') (h' : Grows n s' s'') :
    Grows (m + n) s s'' := by
  obtain ⟨new, hnew, hcount⟩ := h.results
  obtain ⟨new', hnew', hcount'⟩ := h'.results
  refine ⟨h'.seed_eq.trans h.seed_eq, ⟨new ++ new', ?_, ?_⟩, h'.collected ∘ h.collected⟩
  · rw [hnew', hnew, List.append_assoc]
  · rw [List.countP_append, hcount, hcount']

/-- Changes of the printed text leave no record. -/
theorem of_transcript {failed : Nat} {s s' : Session σ} {text : String}
    (h : Grows failed { s with transcript := text } s') : Grows failed s s' :=
  ⟨h.seed_eq, h.results, h.collected⟩

end Grows

section Trials

variable {bench : Bench σ} {config : Config} {first count : Nat} {s s' : Session σ}
  {ending : Ending} {endings : List Ending} {result : Except Error (List Metrics)}

theorem exists_comes (hkernel : bench.kernel.KeepsSize) (config : Config) (index : Nat)
    (s : Session σ) : ∃ ending s', Comes bench config index s ending s' := by
  have hbooks : Books config index s.seed (runTrial bench config index) := books_runTrial hkernel
  obtain ⟨ending, s', hrun, hseed, hentered, hplaced⟩ := hbooks s rfl
  exact ⟨ending, s', hrun, hseed, hentered, hplaced⟩

/-- A trial past the tolerance says so if its number and the seed can be written. -/
theorem Comes.kind_of_isExceeded (h : Comes bench config first s ending s')
    (hexceeded : ending.isExceeded = true) (hfirst : Text.Short first)
    (hseed : Text.Short s.seed) :
    ∃ e, ending.result first s.seed = .error e ∧ e.kind = Error.excess := by
  cases ending <;> cases hexceeded
  obtain ⟨hdescribe, hx, hc, ho⟩ := h.placed
  refine ⟨_, rfl, ?_⟩
  rw [raise_exceeded hdescribe hx hc _ ho, if_pos ⟨hdescribe, hfirst, hseed⟩]
  rfl

theorem Comes.grows (h : Comes bench config first s ending s') :
    Grows (if ending.isExceeded then 1 else 0) s s' := by
  refine ⟨h.seed_eq, ⟨_, h.entered.results_eq, ?_⟩, h.entered.collected⟩
  cases ending <;> rfl

theorem Ending.exists_result_error {ending : Ending} (h : ∀ m, ending ≠ .returned m)
    (index seed : Int) : ∃ e, ending.result index seed = .error e := by
  cases ending with
  | returned m => exact absurd rfl (h m)
  | exceeded | corrupted | stopped => exact ⟨_, rfl⟩

/-- A test is such a sequence of trials. -/
theorem exists_tries (hkernel : bench.kernel.KeepsSize) (config : Config) (first count : Nat)
    (s : Session σ) : ∃ endings result s', Tries bench config first count s endings result s' ∧
      (Counting.collect (fun i ↦ runTrial bench config i) first count).run.run s =
        (result, s') := by
  induction count generalizing first s with
  | zero => exact ⟨[], .ok [], s, .done, rfl⟩
  | succ count ih =>
    obtain ⟨ending, s', hcomes⟩ := exists_comes hkernel config first s
    by_cases hreturned : ∃ m, ending = .returned m
    · obtain ⟨m, rfl⟩ := hreturned
      obtain ⟨endings, result, s'', htries, hrest⟩ := ih (first + 1) s'
      refine ⟨_, _, s'', .goesOn hcomes htries, (run_bind_ok hcomes.run).trans ?_⟩
      cases result with
      | error e => exact run_bind_error hrest
      | ok ms => exact run_bind_ok hrest
    · obtain ⟨e, he⟩ := Ending.exists_result_error (not_exists.1 hreturned) first s.seed
      exact ⟨_, _, s', .stops hcomes he, run_bind_error (he ▸ hcomes.run)⟩

namespace Tries

theorem grows (h : Tries bench config first count s endings result s') :
    Grows (endings.countP (·.isExceeded)) s s' := by
  induction h with
  | done => exact .of_quiet rfl rfl
  | stops h _ =>
    rw [List.countP_singleton]
    exact h.grows
  | goesOn h _ ih =>
    rw [List.countP_cons, Nat.add_comm]
    exact h.grows.trans ih

/-- A test comes to a result exactly when it has gone through all its trials. -/
theorem exists_ok_iff (h : Tries bench config first count s endings result s') :
    (∃ ms, result = .ok ms) ↔
      endings.length = count ∧ ∀ ending ∈ endings, ending.isReturned = true := by
  induction h with
  | done => simp
  | @stops _ _ _ ending _ _ _ he =>
    refine iff_of_false (by simp) fun hall ↦ ?_
    have hreturned := hall.2 ending (List.mem_singleton_self ending)
    cases ending <;> cases hreturned
    cases he
  | @goesOn _ _ _ m _ endings result _ _ _ ih =>
    rw [List.length_cons, Nat.add_right_cancel_iff, List.forall_mem_cons,
      and_iff_right (show (Ending.returned m).isReturned = true from rfl), ← ih]
    cases result with
    | error e => simp [Except.map]
    | ok ms => simp [Except.map]

/-- At most one trial of a test is past the tolerance: its last one. -/
theorem countP_isExceeded (h : Tries bench config first count s endings result s') :
    endings.countP (·.isExceeded) = if endings.any (·.isExceeded) then 1 else 0 := by
  induction h with
  | done => rfl
  | @stops _ _ _ ending _ _ _ _ => cases ending <;> rfl
  | goesOn _ _ ih => exact ih

theorem kind_of_isExceeded (h : Tries bench config first count s endings result s')
    (hseed : Text.Short s.seed) (hlast : Text.Short (first + count : Nat))
    (hany : endings.any (·.isExceeded) = true) :
    ∃ e, result = .error e ∧ e.kind = Error.excess := by
  induction h with
  | done => cases hany
  | stops hcomes he =>
    rw [List.any_cons, List.any_nil, Bool.or_false] at hany
    obtain ⟨e, hresult, hkind⟩ :=
      hcomes.kind_of_isExceeded hany (hlast.of_natAbs_le (by omega)) hseed
    exact ⟨e, by rw [← Except.error.inj (he.symm.trans hresult)], hkind⟩
  | goesOn hcomes _ ih =>
    obtain ⟨e, rfl, hkind⟩ := ih (hcomes.seed_eq ▸ hseed) (hlast.of_natAbs_le (by omega)) hany
    exact ⟨e, rfl, hkind⟩

/-- Where trials that stop early raise no tolerance error, such an error comes from a trial past the
tolerance. -/
theorem isExceeded_of_kind
    (hstopped : ∀ {index : Nat} {s s' : Session σ} {e : Error},
      Comes bench config index s (.stopped e) s' → e.kind ≠ Error.excess)
    (h : Tries bench config first count s endings result s') {e : Error}
    (hresult : result = .error e) (hkind : e.kind = Error.excess) :
    endings.any (·.isExceeded) = true := by
  induction h with
  | done => cases hresult
  | @stops _ _ _ ending _ _ hcomes he =>
    cases hresult
    cases ending with
    | returned => cases he
    | exceeded => rfl
    | corrupted =>
      cases he
      refine absurd hkind (Failure.kind_raise_ne ?_)
      change "OutputCorruptionError" ≠ "ToleranceExceededError"
      decide
    | stopped =>
      cases he
      exact absurd hkind (hstopped hcomes)
  | @goesOn _ _ _ _ _ _ result _ _ _ ih =>
    cases result with
    | ok ms => cases hresult
    | error e' =>
      cases hresult
      exact ih rfl

end Tries

end Trials

end Session

end Depthwise
