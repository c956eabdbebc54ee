import Depthwise.Proofs.Errors
import Depthwise.Proofs.Kernel.Sizes

namespace Depthwise.Kernel

/-- A kernel whose errors have texts. -/
def Speaks {σ : Type} (kernel : Kernel σ) : Prop :=
  ∀ call state e, ((kernel.run call).run state).1.error? = some e → e.Utterable

section Writing

variable {P : Error → Prop}

theorem Writing.raises_single {write : Bytes → Except Error Bytes}
    (h : ∀ output, Throws P (write output)) : Raises P (single write) := by
  intro output
  have hwritten := h output
  rcases hwrite : write output with e | output'
  · have hget : (get : Writing Bytes).run.run output = (.ok output, output) := rfl
    rw [single, run_bind_ok hget, run_bind_error (run_liftM_error hwrite output)]
    exact .error (hwritten e hwrite)
  · rw [run_single hwrite]
    exact .ok ()

theorem Call.of_error?_writing {call : Call} {w : Writing Unit} (h : Raises P w) {e : Error}
    (he : (call.writing w).error? = some e) : P e := by
  have hresult := h call.buffers.output
  rw [Call.writing] at he
  rcases hrun : w.run.run call.buffers.output with ⟨e' | _, output⟩
  · rw [hrun] at he hresult
    cases he
    exact hresult e rfl
  · rw [hrun] at he
    cases he

end Writing

variable {P : Error → Prop} (hP : ∀ f, P (.fault f)) (kernelSize tile : Int) (call : Call)

include hP

namespace Scalar

theorem throws_inBounds {α : Type} (a? : Option α) : Throws P (inBounds a?) := by
  cases a? with
  | none => exact .error (hP _)
  | some a => exact .ok a

theorem throws_term (taps : Array Bytes) (c k : Nat) :
    Throws P (term kernelSize tile call taps c k) :=
  (throws_inBounds hP _).bind fun _ ↦ (throws_inBounds hP _).bind fun _ ↦
    (throws_inBounds hP _).bind fun _ ↦ .ok _

omit hP in
theorem throws_addTerms {next : Nat → Except Error Int} (h : ∀ k, Throws P (next k))
    (k count : Nat) (sum : Int) : Throws P (addTerms next k count sum) := by
  induction count generalizing k sum with
  | zero => exact .ok sum
  | succ count ih => exact (h k).bind fun _ ↦ ih (k + 1) _

theorem throws_accumulate (taps : Array Bytes) (c : Nat) :
    Throws P (accumulate kernelSize tile call taps c) := by
  unfold accumulate
  split
  · exact .error (hP _)
  · exact (throws_inBounds hP _).bind fun _ ↦
      throws_addTerms (fun k ↦ throws_term hP kernelSize tile call taps c k) 0 _ _

theorem throws_storeByte (place code : Int) (output : Bytes) :
    Throws P (storeByte place code output) := by
  unfold storeByte
  split
  · exact .error (hP _)
  split
  · exact .ok _
  · exact .error (hP _)

theorem throws_cell (taps : Array Bytes) (x c : Nat) (output : Bytes) :
    Throws P (cell kernelSize tile call taps x c output) :=
  (throws_accumulate hP kernelSize tile call taps c).bind fun _ ↦
    (Throws.lift_fault hP _).bind fun _ ↦ throws_storeByte hP _ _ output

theorem of_error?_run {e : Error} (he : (run kernelSize tile call).error? = some e) : P e :=
  Call.of_error?_writing (.forEach (fun x ↦ .forEach (fun c ↦ Writing.raises_single fun output ↦
    throws_cell hP kernelSize tile call _ x c output) 0 _) 0 _) he

end Scalar

namespace Vector

theorem throws_usable {α : Type} (a? : Option α) : Throws P (usable a?) := by
  cases a? with
  | none => exact .error (hP _)
  | some a => exact .ok a

theorem throws_word? (n : Int) : Throws P (word? n) := by
  unfold word?
  split
  · exact .ok _
  · exact .error (hP _)

theorem throws_weightGrid : Throws P (weightGrid kernelSize tile call) := by
  unfold weightGrid
  split
  · exact .error (hP _)
  refine (throws_usable hP _).bind fun layout ↦ ?_
  dsimp only
  split
  · split
    · exact .error (hP _)
    · exact .ok _
  · exact .error (hP _)

theorem throws_centredWeights : Throws P (centredWeights kernelSize tile call) :=
  (throws_weightGrid hP kernelSize tile call).bind fun _ ↦ (throws_word? hP _).bind fun _ ↦ .ok _

theorem throws_centredSamples (taps : Array Bytes) : Throws P (centredSamples call taps) := by
  refine (throws_usable hP _).bind fun first ↦ ?_
  dsimp only
  split
  · exact .error (hP _)
  · exact (throws_word? hP _).bind fun _ ↦ .ok _

theorem throws_dot (samples weights : Grid Int32) : Throws P (dot samples weights) :=
  (throws_usable hP _).bind fun _ ↦ (throws_usable hP _).bind fun _ ↦ .ok _

theorem throws_accumulators (weights : Grid Int32) (taps : Array Bytes) :
    Throws P (accumulators call weights taps) :=
  (throws_centredSamples hP call taps).bind fun samples ↦
    (throws_dot hP samples weights).bind fun _ ↦ (throws_usable hP _).bind fun _ ↦ .ok _

theorem throws_storeRow (start : Int) (codes output : Bytes) :
    Throws P (storeRow call start codes output) :=
  (throws_usable hP _).bind fun _ ↦ .ok _

theorem raises_row (weights : Grid Int32) (x : Nat) : Raises P (row kernelSize call weights x) :=
  Writing.raises_single fun output ↦ (throws_accumulators hP call weights _).bind fun _ ↦
    (Throws.lift_fault hP _).bind fun codes ↦ throws_storeRow hP call _ codes output

theorem of_error?_run {e : Error} (he : (run kernelSize tile call).error? = some e) : P e :=
  Call.of_error?_writing (.bind (.liftM (throws_centredWeights hP kernelSize tile call))
    fun weights ↦ .forEach (fun x ↦ raises_row hP kernelSize call weights x) 0 _) he

end Vector

omit hP in
/-- A kernel of the library complains of nothing: it can only come upon a fault. -/
theorem Family.exists_fault_of_error (family : Family) {e : Error}
    (he : (family.run kernelSize tile call).error? = some e) : ∃ f, e = .fault f := by
  cases family with
  | scalar =>
    exact Scalar.of_error?_run (P := fun e ↦ ∃ f, e = .fault f) (fun f ↦ ⟨f, rfl⟩) kernelSize tile
      call he
  | vectorized =>
    exact Vector.of_error?_run (P := fun e ↦ ∃ f, e = .fault f) (fun f ↦ ⟨f, rfl⟩) kernelSize tile
      call he

omit hP call in
theorem Family.speaks (family : Family) (σ : Type) :
    (family.kernel σ kernelSize tile).Speaks := by
  intro call _ e he
  obtain ⟨f, rfl⟩ := family.exists_fault_of_error kernelSize tile call he
  exact Error.utterable_fault f

end Depthwise.Kernel
