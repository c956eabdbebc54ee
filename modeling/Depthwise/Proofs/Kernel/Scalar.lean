import Depthwise.Kernel.Scalar
import Depthwise.Proofs.Kernel.Rows

namespace Depthwise.Kernel

theorem Writing.run_single {write : Bytes → Except Error Bytes} {output output' : Bytes}
    (h : write output = .ok output') :
    (Writing.single write).run.run output = (.ok (), output') := by
  have hget : (get : Writing Bytes).run.run output = (.ok output, output) := rfl
  unfold Writing.single
  rw [run_bind_ok hget, run_bind_ok (run_liftM_ok h output)]
  rfl

namespace Scalar

theorem addTerms_ok {next : Nat → Except Error Int} {v : Nat → Int} (k count : Nat) (sum : Int)
    (h : ∀ i, k ≤ i → i < k + count → next i = .ok (v i)) :
    addTerms next k count sum = .ok (sum + ∑ i ∈ Finset.range count, v (k + i)) := by
  induction count generalizing k sum with
  | zero => simp [addTerms]
  | succ count ih =>
    have hrest := ih (k + 1) (sum + v k) fun i hi hi' ↦ h i (by omega) (by omega)
    rw [addTerms, h k le_rfl (by omega)]
    change addTerms next (k + 1) count (sum + v k) = _
    have hshift : ∀ i, v (k + 1 + i) = v (k + (i + 1)) := fun i ↦ by congr 1; omega
    simp only [hrest, Finset.sum_range_succ', Nat.add_zero, hshift]
    rw [add_assoc, add_comm (v k)]

variable {call : Call} {kernelSize tile : Nat}

theorem term_ok (h : call.Fits kernelSize tile) {x c k : Nat} (hx : x < call.outputWidth.toNat)
    (hc : c < call.channels.toNat) (hk : k < kernelSize) :
    term kernelSize tile call (call.taps kernelSize x) c k =
      .ok ((((call.sample x k c).toNat : Int) - call.inputZeroPoint) *
        (((call.weight kernelSize tile c k).toNat : Int) - call.kernelZeroPoint)) := by
  obtain ⟨row, hrow, hsize, hread⟩ := h.getElem?_taps hx hk
  have hinput : row[c]? = some (call.sample x k c) := by
    rw [← hread, Array.getD_eq_getD_getElem?, Array.getElem?_eq_getElem (by omega)]
    rfl
  rw [term, hrow, h.read?_packed hc hk]
  simp only [inBounds, bind, Except.bind, hinput]
  rfl

theorem accumulate_ok (h : call.Fits kernelSize tile) {x c : Nat}
    (hx : x < call.outputWidth.toNat) (hc : c < call.channels.toNat) :
    accumulate kernelSize tile call (call.taps kernelSize x) c =
      .ok (call.accumulator kernelSize tile x c) := by
  have htile := h.tile_pos
  have hroom := h.bias_room
  have hbias : call.buffers.bias[c]? = some (call.buffers.bias.getD c 0) := by
    have hlt : c < call.buffers.bias.size := by have := h.channels_eq; omega
    rw [Array.getD_eq_getD_getElem?, Array.getElem?_eq_getElem hlt]
    rfl
  have hterms := addTerms_ok 0 kernelSize (call.buffers.bias.getD c 0).toInt
    (fun k _ hk ↦ term_ok h hx hc (k := k) (by omega))
  rw [accumulate, if_neg (by omega), hbias]
  simp only [inBounds, bind, Except.bind, Int.toNat_natCast]
  change addTerms _ 0 kernelSize _ = _
  rw [hterms, Call.accumulator, Int.toNat_natCast]
  simp only [Nat.zero_add]

theorem storeByte_ok {place : Nat} {code : Int} {output : Bytes} (hplace : place < output.size)
    (hcode : 0 ≤ code ∧ code ≤ 255) :
    storeByte place code output =
      .ok (output.setIfInBounds place (UInt8.ofNat code.toNat)) := by
  rw [storeByte, Buffer.position?_natCast hplace]
  exact if_pos hcode

variable (hp : call.params.Sound)

include hp

theorem cell_ok (h : call.Fits kernelSize tile) {x c : Nat} (hx : x < call.outputWidth.toNat)
    (hc : c < call.channels.toNat) {output : Bytes}
    (hsize : output.size = call.buffers.output.size) :
    cell kernelSize tile call (call.taps kernelSize x) x c output =
      .ok (output.setIfInBounds (x * call.stride + c)
        (call.params.code (call.accumulator kernelSize tile x c))) := by
  have hroom := h.row_le hx
  have hcode := FixedPoint.requantize_mem hp (call.accumulator kernelSize tile x c)
  have hqmin := hp.qmin_nonneg
  have hqmax := hp.qmax_le
  have hshift := hp.shift_nonneg
  have hplace : call.rowStart x + (c : Int) = ((x * call.stride + c : Nat) : Int) := by
    rw [h.rowStart_eq]
    push_cast
    rfl
  have hrequantize : FixedPoint.requantize? call.params (call.accumulator kernelSize tile x c) =
      .ok (FixedPoint.requantize call.params (call.accumulator kernelSize tile x c)) := by
    rw [FixedPoint.requantize?, if_neg (by omega)]
  have hstore : storeByte ((x * call.stride + c : Nat) : Int)
      (FixedPoint.requantize call.params (call.accumulator kernelSize tile x c)) output =
        .ok (output.setIfInBounds (x * call.stride + c)
          (call.params.code (call.accumulator kernelSize tile x c))) :=
    storeByte_ok (by omega) (by omega)
  rw [cell, accumulate_ok h hx hc, hplace]
  simp only [bind, Except.bind, hrequantize]
  exact hstore

theorem row_run (h : call.Fits kernelSize tile) {x : Nat} (hx : x < call.outputWidth.toNat)
    {output : Bytes} (hsize : output.size = call.buffers.output.size) :
    (row kernelSize tile call x).run.run output =
      (.ok (), Buffer.overwrite output (x * call.stride) ((List.range call.channels.toNat).map
        fun c ↦ call.params.code (call.accumulator kernelSize tile x c))) := by
  obtain ⟨hrun, -⟩ := Counting.forEach_run
    (f := fun c ↦ Writing.single (cell kernelSize tile call (call.taps kernelSize x) x c))
    (g := fun c output ↦ output.setIfInBounds (x * call.stride + c)
      (call.params.code (call.accumulator kernelSize tile x c)))
    (I := fun output ↦ output.size = call.buffers.output.size) 0 call.channels.toNat
    (fun c _ hc output hsize ↦ ⟨Writing.run_single (cell_ok hp h hx (by omega) hsize), by
      rw [Array.size_setIfInBounds, hsize]⟩) output hsize
  rw [Buffer.foldl_setIfInBounds, Nat.add_zero, ← List.range_eq_range'] at hrun
  exact hrun

/-- The scalar kernel fills the rows with the codes of the exact accumulators. -/
theorem run_eq (h : call.Fits kernelSize tile) :
    run kernelSize tile call =
      call.filled fun x c ↦ call.params.code (call.accumulator kernelSize tile x c) := by
  obtain ⟨hrun, -⟩ := Counting.forEach_run (f := row kernelSize tile call)
    (g := fun x output ↦ Buffer.overwrite output (x * call.stride)
      ((List.range call.channels.toNat).map fun c ↦
        call.params.code (call.accumulator kernelSize tile x c)))
    (I := fun output ↦ output.size = call.buffers.output.size) 0 call.outputWidth.toNat
    (fun x _ hx output hsize ↦ ⟨row_run hp h (by omega) hsize, by
      rw [Buffer.size_overwrite, hsize]⟩) call.buffers.output rfl
  rw [← List.range_eq_range'] at hrun
  rw [run, Call.writing, hrun]
  rfl

end Scalar

end Depthwise.Kernel
