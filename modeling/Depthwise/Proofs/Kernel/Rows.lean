import Depthwise.Kernel.Call
import Depthwise.Proofs.Computations
import Depthwise.Proofs.FixedPoint.Lanes
import Depthwise.Proofs.Weights
import Mathlib.Algebra.BigOperators.Intervals

namespace Depthwise

namespace Kernel

theorem exists_counts {kernelSize tile : Int} (hks : 1 ≤ kernelSize) (htile : 1 ≤ tile) :
    ∃ m n : Nat, kernelSize = m ∧ tile = n := by
  obtain ⟨m, hm⟩ := Int.eq_ofNat_of_zero_le (zero_le_one.trans hks)
  obtain ⟨n, hn⟩ := Int.eq_ofNat_of_zero_le (zero_le_one.trans htile)
  exact ⟨m, n, hm, hn⟩

namespace Call

def step (call : Call) : Nat := (call.inputIncrement.fdiv Settings.entrySize).toNat

def stride (call : Call) : Nat := (call.channels + call.outputIncrement).toNat

/-- What a caller promises of a call: counts that make sense, and buffers that reach as far as the
counts ask for. -/
structure Fits (kernelSize tile : Int) (call : Call) : Prop where
  kernelSize_pos : 1 ≤ kernelSize
  tile_pos : 1 ≤ tile
  channels_pos : 1 ≤ call.channels
  width_nonneg : 0 ≤ call.outputWidth
  inputIncrement_nonneg : 0 ≤ call.inputIncrement
  outputIncrement_nonneg : 0 ≤ call.outputIncrement
  packed_room :
    Weights.tileCount tile call.channels * tile * kernelSize ≤ call.buffers.packed.size
  bias_room : call.channels ≤ call.buffers.bias.size
  table_room : ∀ x < call.outputWidth.toNat, (x * call.step : Int) + kernelSize ≤ call.table.size
  view_room : ∀ x < call.outputWidth.toNat, ∀ k < kernelSize.toNat,
    ∀ view ∈ call.table[x * call.step + k]?,
      call.channels ≤ (view.read call.buffers.input).size
  output_room : 0 < call.outputWidth →
    (call.outputWidth - 1) * (call.channels + call.outputIncrement) + call.channels ≤
      call.buffers.output.size

def sample (call : Call) (x k c : Nat) : UInt8 :=
  ((call.table.getD (x * call.step + k) ⟨0, 0⟩).read call.buffers.input).getD c 0

def weight (call : Call) (kernelSize tile : Int) (c k : Nat) : UInt8 :=
  call.buffers.packed.getD (Weights.place kernelSize tile c k).toNat 0

def accumulator (call : Call) (kernelSize tile : Int) (x c : Nat) : Int :=
  (call.buffers.bias.getD c 0).toInt + ∑ k ∈ Finset.range kernelSize.toNat,
    (((call.sample x k c).toNat : Int) - call.inputZeroPoint) *
      (((call.weight kernelSize tile c k).toNat : Int) - call.kernelZeroPoint)

def filled (call : Call) (code : Nat → Nat → UInt8) : Outcome :=
  call.wrote (Buffer.writeRows call.stride
    (fun x ↦ (List.range call.channels.toNat).map (code x)) call.outputWidth.toNat
    call.buffers.output) none

variable {call : Call}

theorem size_filled (code : Nat → Nat → UInt8) :
    (call.filled code).buffers.output.size = call.buffers.output.size :=
  Buffer.size_writeRows _ _

theorem packed_room_iff {kernelSize tile : Nat} (hchannels : 1 ≤ call.channels) :
    Weights.tileCount tile call.channels * tile * kernelSize ≤ call.buffers.packed.size ↔
      Weights.tiles tile call.channels.toNat * kernelSize * tile ≤ call.buffers.packed.size := by
  obtain ⟨channels, hcast⟩ := Int.eq_ofNat_of_zero_le (zero_le_one.trans hchannels)
  rw [hcast, Weights.tileCount_natCast (by omega), Int.toNat_natCast, mul_right_comm]
  exact_mod_cast Iff.rfl

theorem getElem?_slot {kernelSize tile c k : Nat} (htile : 0 < tile)
    (hroom : Weights.tiles tile call.channels.toNat * kernelSize * tile ≤ call.buffers.packed.size)
    (hc : c < call.channels.toNat) (hk : k < kernelSize) :
    call.buffers.packed[Weights.slot kernelSize tile c k]? =
      some (call.weight kernelSize tile c k) := by
  have hlt := (Weights.slot_lt htile hc hk).trans_le hroom
  rw [weight, Weights.place_natCast, Int.toNat_natCast, Array.getD_eq_getD_getElem?,
    Array.getElem?_eq_getElem hlt]
  rfl

namespace Fits

section Rows

variable {kernelSize tile : Int} (h : call.Fits kernelSize tile)

include h

theorem channels_eq : (call.channels.toNat : Int) = call.channels :=
  Int.toNat_of_nonneg (by have := h.channels_pos; omega)

theorem stride_eq : (call.stride : Int) = call.channels + call.outputIncrement :=
  Int.toNat_of_nonneg (by have := h.channels_pos; have := h.outputIncrement_nonneg; omega)

theorem step_eq : (call.step : Int) = call.inputIncrement.fdiv Settings.entrySize :=
  Int.toNat_of_nonneg (Int.fdiv_nonneg h.inputIncrement_nonneg (by decide))

theorem rowStart_eq (x : Nat) : call.rowStart x = ((x * call.stride : Nat) : Int) := by
  rw [Call.rowStart, ← h.stride_eq]
  push_cast
  rfl

theorem row_le {x : Nat} (hx : x < call.outputWidth.toNat) :
    x * call.stride + call.channels.toNat ≤ call.buffers.output.size := by
  refine Buffer.row_end_le (fun hpos ↦ ?_) hx
  have hroom := h.output_room (by omega)
  rw [← h.stride_eq, ← h.channels_eq] at hroom
  have hwidth : call.outputWidth - 1 = ((call.outputWidth.toNat - 1 : Nat) : Int) := by omega
  rw [hwidth] at hroom
  exact_mod_cast hroom

theorem getElem?_filled (code : Nat → Nat → UInt8) {x c : Nat} (hx : x < call.outputWidth.toNat)
    (hc : c < call.channels.toNat) :
    (call.filled code).buffers.output[x * call.stride + c]? = some (code x c) := by
  have hstride : call.channels.toNat ≤ call.stride := by
    have := h.stride_eq
    have := h.channels_eq
    have := h.outputIncrement_nonneg
    omega
  have hread : (call.filled code).buffers.output[x * call.stride + c]? =
      ((List.range call.channels.toNat).map (code x))[c]? :=
    Buffer.getElem?_writeRows_row (fun _ _ ↦ by simp) hstride (fun hpos ↦ h.row_le (by omega)) hx hc
  rw [hread, List.getElem?_map, List.getElem?_range hc]
  rfl

theorem getElem?_filled_of_outside (code : Nat → Nat → UInt8) {i : Nat}
    (hi : ∀ x < call.outputWidth.toNat,
      i < x * call.stride ∨ x * call.stride + call.channels.toNat ≤ i) :
    (call.filled code).buffers.output[i]? = call.buffers.output[i]? :=
  Buffer.getElem?_writeRows_of_outside (fun _ _ ↦ by simp) (fun hpos ↦ h.row_le (by omega)) hi

theorem exists_natCast : ∃ m n : Nat, kernelSize = m ∧ tile = n :=
  exists_counts h.kernelSize_pos h.tile_pos

end Rows

variable {kernelSize tile : Nat} (h : call.Fits kernelSize tile)

include h

theorem packed_le :
    Weights.tiles tile call.channels.toNat * kernelSize * tile ≤ call.buffers.packed.size :=
  (packed_room_iff h.channels_pos).1 h.packed_room

theorem view_of_lt {x k : Nat} (hx : x < call.outputWidth.toNat) (hk : k < kernelSize) :
    ∃ view, call.table[x * call.step + k]? = some view ∧
      call.channels.toNat ≤ (view.read call.buffers.input).size := by
  have hroom := h.table_room x hx
  have hlt : x * call.step + k < call.table.size := by
    have : (x * call.step : Int) + k < call.table.size := by omega
    exact_mod_cast this
  refine ⟨_, Array.getElem?_eq_getElem hlt, ?_⟩
  have := h.view_room x hx k (by simpa using hk) _ (Array.getElem?_eq_getElem hlt)
  have := h.channels_pos
  omega

theorem size_taps {x : Nat} (hx : x < call.outputWidth.toNat) :
    (call.taps kernelSize x).size = kernelSize := by
  have hroom := h.table_room x hx
  have hstop : x * call.step + kernelSize ≤ call.table.size := by exact_mod_cast hroom
  have hstart : (x : Int) * call.inputIncrement.fdiv Settings.entrySize =
      ((x * call.step : Nat) : Int) := by
    rw [← h.step_eq]
    push_cast
    rfl
  rw [taps, hstart, Array.size_map, ← Nat.cast_add, Buffer.slice_natCast _ (by omega) hstop,
    Array.size_extract]
  omega

theorem getElem?_taps {x k : Nat} (hx : x < call.outputWidth.toNat) (hk : k < kernelSize) :
    ∃ row, (call.taps kernelSize x)[k]? = some row ∧ call.channels.toNat ≤ row.size ∧
      ∀ c, row.getD c 0 = call.sample x k c := by
  obtain ⟨view, hview, hsize⟩ := h.view_of_lt hx hk
  have hroom := h.table_room x hx
  have hstop : x * call.step + kernelSize ≤ call.table.size := by exact_mod_cast hroom
  have hstart : (x : Int) * call.inputIncrement.fdiv Settings.entrySize =
      ((x * call.step : Nat) : Int) := by
    rw [← h.step_eq]
    push_cast
    rfl
  refine ⟨view.read call.buffers.input, ?_, hsize, fun c ↦ ?_⟩
  · rw [taps, hstart, Array.getElem?_map, ← Nat.cast_add, Buffer.slice_natCast _ (by omega) hstop,
      Array.getElem?_extract, if_pos (by omega), hview]
    rfl
  · rw [sample, Array.getD_eq_getD_getElem?, Array.getD_eq_getD_getElem?,
      Array.getD_eq_getD_getElem?, hview]
    rfl

theorem getElem?_packed {c k : Nat} (hc : c < call.channels.toNat) (hk : k < kernelSize) :
    call.buffers.packed[Weights.slot kernelSize tile c k]? =
      some (call.weight kernelSize tile c k) :=
  getElem?_slot (by have := h.tile_pos; omega) h.packed_le hc hk

theorem read?_packed {c k : Nat} (hc : c < call.channels.toNat) (hk : k < kernelSize) :
    Buffer.read? call.buffers.packed (Weights.place kernelSize tile c k) =
      some (call.weight kernelSize tile c k) := by
  rw [Weights.place_natCast]
  exact Buffer.read?_eq_some (h.getElem?_packed hc hk)

end Fits

end Call

end Kernel

end Depthwise
