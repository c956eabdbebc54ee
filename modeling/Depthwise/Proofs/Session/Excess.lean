import Depthwise.Proofs.Session.Errors
import Depthwise.Proofs.Session.Tests

namespace Depthwise

theorem FixedPoint.Rejection.kind_raise_ne (rejection : Rejection) :
    rejection.raise.kind ≠ Error.excess := by
  rcases Error.worded_cases rejection.wording (.rejection rejection) with hraise | hraise
  · rw [raise, hraise]
    change "AssertionError" ≠ "ToleranceExceededError"
    decide
  · rw [raise, hraise]
    exact Error.kind_fault_ne _

/-- A kernel that leaves the comparison to the session. -/
def Kernel.Neutral {σ : Type} (kernel : Kernel σ) : Prop :=
  ∀ call state e, ((kernel.run call).run state).1.error? = some e → e.kind ≠ Error.excess

theorem Failure.kind_raise_degenerate_ne (data : Degeneracy) (trial seed : Option Int) :
    (Failure.mk (.degenerate data) trial seed).raise.kind ≠ Error.excess := by
  refine kind_raise_ne ?_
  change "DegenerateDataError" ≠ "ToleranceExceededError"
  decide

/-- Nothing before the verdict is an error past the tolerance. -/
theorem ordinary_kind_ne : Ordinary (·.kind ≠ Error.excess) where
  fault := Error.kind_fault_ne
  shortBuffer := by decide
  rejection := FixedPoint.Rejection.kind_raise_ne
  degenerate := Failure.kind_raise_degenerate_ne

namespace Session

variable {σ α : Type} {kernel : Kernel σ} {config : Config}

/-- A computation that leaves a record where it raises a tolerance error. -/
def Marks (r : Run σ Metrics) : Prop :=
  ∀ s e s', r.run.run s = (.error e, s') → e.kind = Error.excess →
    s'.history.results.toList ≠ s.history.results.toList

theorem Marks.bind {x : Run σ α} {f : α → Run σ Metrics} (hquiet : Quiet x)
    (hraises : Raises (·.kind ≠ Error.excess) x)
    (hf : ∀ a, Marks (f a)) : Marks (x >>= f) := by
  intro s e s' hrun he
  obtain ⟨-, hhistory⟩ := hquiet s
  have hresult := hraises s
  rcases hx : x.run.run s with ⟨e' | a, between⟩
  · rw [hx] at hresult
    cases (run_bind_error hx).symm.trans hrun
    exact absurd he (hresult e rfl)
  · rw [hx] at hhistory
    rw [← hhistory]
    exact hf a between e s' ((run_bind_ok hx).symm.trans hrun) he

theorem marks_compare (index seed : Int) (padding : List (Int × UInt8)) (output : Affine)
    (accs : List (List Int)) (written : Bytes) :
    Marks (compare config index seed padding output accs written : Run σ Metrics) := by
  intro s e s' hrun he
  rcases compare_cases config index seed padding output accs written with
    ⟨f, hall⟩ | ⟨m, r, hall⟩
  · cases (hall s).symm.trans hrun
    exact absurd he (Error.kind_fault_ne f)
  · cases (hall s).symm.trans hrun
    rw [enterTrial, History.results_enter]
    exact fun h ↦ List.cons_ne_nil _ _ (List.append_right_eq_self.1 h)

theorem marks_runTrial (hneutral : kernel.Neutral) (index : Int) :
    Marks (runTrial (Bench.ofKernel kernel) config index) := by
  have hP := ordinary_kind_ne
  have hrun : ∀ t params, Raises (·.kind ≠ Error.excess)
      (runKernel (Bench.ofKernel kernel) config t params) := raises_runKernel hneutral
  refine .bind (quiet_draw _) (fun s ↦ raises_draw hP _ s.stream) fun t ↦ ?_
  refine .bind quiet_get (fun s ↦ .ok s) fun s ↦ ?_
  refine .bind (quiet_liftM _) (.liftM (throws_checkBuffer hP _ _ _ _)) fun _ ↦ ?_
  refine .bind (quiet_liftM _) (.liftM (throws_checkBuffer hP _ _ _ _)) fun _ ↦ ?_
  refine .bind (quiet_liftM _) (.liftM (throws_padding hP _ _)) fun padding ↦ ?_
  refine .bind (quiet_call _) (fun s ↦ throws_pack hP _ _ _ _ _) fun packed ↦ ?_
  refine .bind (quiet_liftM _) (.liftM (throws_accumulators hP _ _)) fun accs ↦ ?_
  refine .bind (quiet_liftM _) (.liftM (throws_checkRange hP _ _ _)) fun _ ↦ ?_
  refine .bind (quiet_call _) (fun s ↦ raises_derive hP _ _ _ s.outside) fun params ↦ ?_
  refine .bind (quiet_runKernel _ _ _) (hrun _ _) fun left ↦ ?_
  exact marks_compare index s.seed _ _ _ _

/-- A trial that stops without a record has raised no tolerance error. -/
theorem Comes.kind_ne_of_stopped (hneutral : kernel.Neutral) {index : Nat} {s s' : Session σ}
    {e : Error} (h : Comes (Bench.ofKernel kernel) config index s (.stopped e) s') :
    e.kind ≠ Error.excess := fun he ↦
  marks_runTrial hneutral index s e s' h.run he (h.entered.results_eq.trans (List.append_nil _))

end Session

end Depthwise
