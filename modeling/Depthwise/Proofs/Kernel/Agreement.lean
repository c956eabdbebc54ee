import Depthwise.Kernel.Shipped
import Depthwise.Proofs.FixedPoint.Scale
import Depthwise.Proofs.Kernel.Vector

namespace Depthwise.Kernel

variable {call : Call}

theorem Call.filled_congr {code code' : Nat → Nat → UInt8}
    (h : ∀ x < call.outputWidth.toNat, ∀ c < call.channels.toNat, code x c = code' x c) :
    call.filled code = call.filled code' := by
  rw [Call.filled, Call.filled, Buffer.writeRows_congr fun x hx ↦ ?_]
  exact List.map_congr_left fun c hc ↦ h x hx c (List.mem_range.1 hc)

theorem store_word {p : FixedPoint.Params} (hp : p.Sound) {acc : Int} (h : FitsLane acc) :
    p.words.store (Int32.ofInt acc).toInt64 = p.code acc := by
  have hword : (Int32.ofInt acc).toInt64.toInt = acc := by
    rw [Int32.toInt_toInt64, toInt_ofInt h]
  obtain ⟨hlow, hhigh⟩ := h
  rw [FixedPoint.store_eq_code hp (by rw [hword, abs_le]; omega), hword]

theorem Family.run_eq {kernelSize tile : Int} (h : call.Fits kernelSize tile)
    (hp : call.params.Sound) (hinput : FitsLane call.inputZeroPoint)
    (hkernel : FitsLane call.kernelZeroPoint)
    (hacc : ∀ x < call.outputWidth.toNat, ∀ c < call.channels.toNat,
      FitsLane (call.accumulator kernelSize tile x c)) (family : Family) :
    family.run kernelSize tile call =
      call.filled fun x c ↦ call.params.code (call.accumulator kernelSize tile x c) := by
  obtain ⟨kernelSize, tile, rfl, rfl⟩ := h.exists_natCast
  cases family with
  | scalar => exact Scalar.run_eq hp h
  | vectorized =>
    rw [Family.run, Vector.run_eq h hp hinput hkernel]
    exact Call.filled_congr fun x hx c hc ↦ store_word hp (hacc x hx c hc)

/-- A call whose products leave the words and cancel each other out. -/
def cancellingCall : Call where
  channels := 3
  outputWidth := 2
  table := #[⟨0, 3⟩, ⟨4, 8⟩, ⟨1, 8⟩]
  buffers := {
    input := #[0, 9, 200, 255, 3, 77, 0, 1]
    packed := #[129, 129, 125, 125, 129, 0, 125, 0]
    bias := #[0, -7, 40]
    output := #[1, 2, 3, 4, 5, 6, 7, 8] }
  inputIncrement := 8
  outputIncrement := 1
  inputZeroPoint := -0x80000000
  kernelZeroPoint := 127
  params := ⟨1610612736, 2, 3, 1, 5, 2, 250, .vector⟩

end Depthwise.Kernel
