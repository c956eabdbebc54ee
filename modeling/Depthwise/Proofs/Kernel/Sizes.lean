import Depthwise.Kernel.Shipped
import Depthwise.Proofs.Kernel.Scalar

namespace Depthwise.Kernel

section Writing

variable {size : Nat}

theorem Writing.keeps_single {write : Bytes → Except Error Bytes}
    (h : ∀ output output', write output = .ok output' → output'.size = output.size) :
    Keeps (fun output : Bytes ↦ output.size = size) (single write) := by
  intro output hsize
  rcases hwrite : write output with e | output'
  · have hget : (get : Writing Bytes).run.run output = (.ok output, output) := rfl
    rw [single, run_bind_ok hget, run_bind_error (run_liftM_error hwrite output)]
    exact hsize
  · rw [run_single hwrite]
    exact (h output output' hwrite).trans hsize

theorem Call.size_writing (call : Call) {w : Writing Unit}
    (h : Keeps (fun output : Bytes ↦ output.size = call.buffers.output.size) w) :
    (call.writing w).buffers.output.size = call.buffers.output.size := by
  have hsize := h call.buffers.output rfl
  rw [Call.writing]
  rcases hrun : w.run.run call.buffers.output with ⟨_ | _, output⟩ <;>
    · rw [hrun] at hsize
      exact hsize

end Writing

variable {kernelSize tile : Int} {call : Call} {output output' : Bytes}

theorem Scalar.size_storeByte {place code : Int} (h : storeByte place code output = .ok output') :
    output'.size = output.size := by
  rw [storeByte] at h
  split at h
  · cases h
  · split at h <;> cases h
    exact Array.size_setIfInBounds

theorem Scalar.size_cell {taps : Array Bytes} {x c : Nat}
    (h : cell kernelSize tile call taps x c output = .ok output') :
    output'.size = output.size := by
  obtain ⟨acc, -, h⟩ := exists_of_bind_eq_ok h
  obtain ⟨code, -, h⟩ := exists_of_bind_eq_ok h
  exact size_storeByte h

theorem Scalar.size_run (kernelSize tile : Int) (call : Call) :
    (run kernelSize tile call).buffers.output.size = call.buffers.output.size :=
  call.size_writing <| .forEach (fun _ ↦ .forEach (fun _ ↦
    Writing.keeps_single fun _ _ ↦ size_cell) 0 _) 0 _

theorem Vector.size_storeRow {start : Int} {codes : Bytes}
    (h : storeRow call start codes output = .ok output') : output'.size = output.size := by
  obtain ⟨stretched, -, h⟩ := exists_of_bind_eq_ok h
  cases h
  exact Buffer.size_overwrite _ _ _

theorem Vector.size_row {weights : Vector.Grid Int32} {taps : Array Bytes} {start : Int}
    (h : (do
      let accs ← accumulators call weights taps
      let codes ← FixedPoint.requantizeLanes call.params (accs.map (·.toInt64))
      storeRow call start codes output) = Except.ok output') : output'.size = output.size := by
  obtain ⟨accs, -, h⟩ := exists_of_bind_eq_ok h
  obtain ⟨codes, -, h⟩ := exists_of_bind_eq_ok h
  exact size_storeRow h

theorem Vector.size_run (kernelSize tile : Int) (call : Call) :
    (run kernelSize tile call).buffers.output.size = call.buffers.output.size := by
  exact call.size_writing (.bind (.liftM _) fun weights ↦ .forEach (fun x ↦
    Writing.keeps_single fun _ _ ↦ size_row) 0 _)

/-- A kernel of the library does not change the length of an output. -/
theorem Family.size_run (family : Family) (kernelSize tile : Int) (call : Call) :
    (family.run kernelSize tile call).buffers.output.size = call.buffers.output.size := by
  cases family with
  | scalar => exact Scalar.size_run kernelSize tile call
  | vectorized => exact Vector.size_run kernelSize tile call

end Depthwise.Kernel
