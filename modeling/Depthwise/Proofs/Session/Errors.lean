import Depthwise.Proofs.Kernel.Errors
import Depthwise.Proofs.Session.Ledger
import Depthwise.Proofs.Trial.Draws

namespace Depthwise

section Stages

variable {P : Error → Prop} (hP : Ordinary P) (s : Settings)

include hP

theorem raises_draw : Raises P (Trial.draw s {}) := by
  intro stream
  obtain ⟨hdrawn, hrefused⟩ := Trial.sized_draw s none
  by_cases hallocatable : Trial.Allocatable s
  · obtain ⟨t, stream', hrun, -⟩ := hdrawn hallocatable stream
    rw [hrun]
    exact .ok t
  · obtain ⟨stream', hrun⟩ := hrefused hallocatable stream
    rw [hrun]
    exact .error (hP.fault _)

theorem throws_checkBuffer (name : String) (values : List Int) (trial seed : Option Int) :
    Throws P (Contrast.checkBuffer name values trial seed) := by
  unfold Contrast.checkBuffer
  split
  · exact .error (hP.degenerate _ _ _)
  · exact .ok ()

theorem throws_checkRange (accumulators : List Int) (trial seed : Option Int) :
    Throws P (Contrast.checkRange accumulators trial seed) := by
  unfold Contrast.checkRange
  split
  · exact .error (hP.degenerate _ _ _)
  · exact .ok ()

theorem throws_readByte (output : Bytes) (place : Int) :
    Throws P (Output.readByte output place) := by
  unfold Output.readByte
  split
  · exact .ok _
  · exact .error (hP.fault _)

theorem throws_padding (output : Bytes) : Throws P (Output.padding s output) :=
  .mapM fun _ _ ↦ (throws_readByte hP output _).bind fun _ ↦ .ok _

theorem throws_pack (channels kernelSize tile : Int) (weights packed : Bytes) :
    Throws P (Weights.pack channels kernelSize tile weights packed) := by
  unfold Weights.pack
  split
  · exact .error (hP.fault _)
  split
  · exact .error hP.shortBuffer
  split
  · exact .error hP.shortBuffer
  split
  · dsimp only
    split
    · exact .ok _
    · exact .error (hP.fault _)
  · exact .error (hP.fault _)

theorem throws_accumulators (t : Trial) : Throws P (Convolution.accumulators s t) := by
  have hsample : ∀ x k, Throws P (Convolution.sample s t x k) := by
    intro x k
    unfold Convolution.sample
    split
    · exact .error (hP.fault _)
    split
    · exact .error (hP.fault _)
    · exact .ok _
  have hgather : Throws P (Convolution.gather s t) := by
    refine .bind ?_ fun _ ↦ .collect (fun x ↦ .collect (fun k ↦ hsample x k) 0 _) 0 _
    unfold Trial.sizeOf
    split
    · exact .error (hP.fault _)
    · exact .ok _
  refine hgather.bind fun samples ↦ ?_
  dsimp only
  split
  · exact .error (hP.fault _)
  change Throws P (if _ then _ else _)
  split
  · exact .error (hP.fault _)
  · split
    · exact .error (hP.fault _)
    · exact .ok _

theorem raises_derive {σ : Type} (accs : List Int) (qmin qmax : Int) :
    Raises P (Parameters.derive (FixedPoint.Path.vector.routine σ)
      (FixedPoint.Path.scalar.routine σ) accs qmin qmax) := by
  have hroutine : ∀ (path : FixedPoint.Path) scale zeroPoint,
      Raises P (path.routine σ scale zeroPoint qmin qmax) := by
    intro path scale zeroPoint
    refine .liftM ?_
    cases FixedPoint.derive path scale zeroPoint qmin qmax with
    | error rejection => exact .error (hP.rejection rejection)
    | ok p => exact .ok p
  refine .bind (.liftM (.lift_fault hP.fault _)) fun q ↦ ?_
  exact .bind (hroutine .vector _ _) fun _ ↦ .bind (hroutine .scalar _ _) fun _ ↦ .pure _

end Stages

namespace Session

variable {σ : Type} {P : Error → Prop} {config : Config}

theorem raises_runKernel {bench : Bench σ}
    (hkernel : ∀ call state e, ((bench.kernel.run call).run state).1.error? = some e → P e)
    (t : Trial) (params : FixedPoint.Params) : Raises P (runKernel bench config t params) := by
  intro s
  rcases hrun : (bench.kernel.run (kernelCall config t params)).run s.outside with
    ⟨outcome, after⟩
  rw [runKernel_run bench hrun]
  rcases herror : outcome.error? with _ | e
  · exact .ok _
  · refine .error (hkernel (kernelCall config t params) s.outside e ?_)
    rw [hrun]
    exact herror

theorem raises_keep {α : Type} (hP : Ordinary P) (r : Recording α) :
    Raises P (keep r : Run σ α) := by
  intro s
  rcases hrun : r.run.run s.history with ⟨f | a, history⟩
  · have hkeep : ((keep r : Run σ α).run.run s).1 = .error (.fault f) :=
      congrArg (fun r ↦ r.1.mapError Error.fault) hrun
    rw [hkeep]
    exact .error (hP.fault f)
  · have hkeep : ((keep r : Run σ α).run.run s).1 = .ok a :=
      congrArg (fun r ↦ r.1.mapError Error.fault) hrun
    rw [hkeep]
    exact .ok a

theorem throws_rows (hP : Ordinary P) (s : Settings) (output : Bytes) :
    Throws P (Output.rows s output) := by
  refine .mapM fun x _ ↦ ?_
  dsimp only
  split
  · exact .ok _
  · exact .error (hP.fault _)

theorem throws_firstChanged (hP : Ordinary P) (before : List (Int × UInt8)) (output : Bytes) :
    Throws P (Output.firstChanged before output) := by
  induction before with
  | nil => exact .ok none
  | cons a rest ih =>
    refine (throws_readByte hP output a.1).bind fun b ↦ ?_
    split
    · exact .ok _
    · exact ih

/-- What a comparison raises has a text. -/
theorem raises_compare (index seed : Int) (padding : List (Int × UInt8)) (output : Affine)
    (accs : List (List Int)) (written : Bytes) :
    Raises Error.Utterable
      (compare config index seed padding output accs written : Run σ Metrics) := by
  have hfault := ordinary_utterable.fault
  have hfailure : ∀ f : Failure, f.raise.Utterable := fun f ↦ Error.utterable_worded (.failure f)
  refine .bind (.liftM (throws_rows ordinary_utterable _ _)) fun rows ↦ ?_
  refine .bind (.liftM (.lift_fault hfault _)) fun metrics ↦ ?_
  refine .bind (.liftM (.lift_fault hfault _)) fun description ↦ ?_
  refine .bind (raises_keep ordinary_utterable _) fun _ ↦ ?_
  dsimp only
  split
  · split
    · exact fun _ ↦ .error (hfailure _)
    · exact fun _ ↦ .error (hfault _)
  · refine .bind (.liftM (throws_firstChanged ordinary_utterable _ _)) fun place? ↦ ?_
    cases place? with
    | none => exact .pure _
    | some place => exact fun _ ↦ .error (hfailure _)

section Trials

variable {kernel : Kernel σ} (hkernel : kernel.Speaks)

include hkernel

theorem raises_runTrial (config : Config) (index : Int) :
    Raises Error.Utterable (runTrial (Bench.ofKernel kernel) config index) := by
  have hP := ordinary_utterable
  have hrun : ∀ t params, Raises Error.Utterable
      (runKernel (Bench.ofKernel kernel) config t params) := raises_runKernel hkernel
  refine .bind (fun s ↦ raises_draw hP _ s.stream) fun t ↦ ?_
  refine .bind (fun s ↦ .ok s) fun s ↦ ?_
  refine .bind (.liftM (throws_checkBuffer hP _ _ _ _)) fun _ ↦ ?_
  refine .bind (.liftM (throws_checkBuffer hP _ _ _ _)) fun _ ↦ ?_
  refine .bind (.liftM (throws_padding hP _ _)) fun padding ↦ ?_
  refine .bind (fun s ↦ throws_pack hP _ _ _ _ _) fun packed ↦ ?_
  refine .bind (.liftM (throws_accumulators hP _ _)) fun accs ↦ ?_
  refine .bind (.liftM (throws_checkRange hP _ _ _)) fun _ ↦ ?_
  refine .bind (fun s ↦ raises_derive hP _ _ _ s.outside) fun params ↦ ?_
  refine .bind (hrun _ _) fun left ↦ ?_
  exact raises_compare index s.seed _ _ _ _

/-- With a kernel whose errors have texts, whatever stops a test has one. -/
theorem raises_test (config : Config) :
    Raises Error.Utterable (test (Bench.ofKernel kernel) config) :=
  .collect (fun i ↦ raises_runTrial hkernel config i) 0 _

end Trials

end Session

end Depthwise
