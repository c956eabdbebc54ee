import Depthwise.Proofs.Config
import Depthwise.Trial.Draw
import Mathlib.Data.List.Perm.Basic

namespace Depthwise.Trial

/-- Buffers as long as the settings ask for, the packed weights apart, and views that reach over all
channels. -/
structure Fits (s : Settings) (t : Trial) : Prop where
  input_size : (t.buffers.input.size : Int) = s.inputSize
  weights_size : (t.weights.size : Int) = s.channels * s.kernelSize
  bias_size : (t.buffers.bias.size : Int) = s.packedChannels
  output_size : (t.buffers.output.size : Int) = s.outputSize
  table_size : (t.table.size : Int) = s.tableSize
  view_room : ∀ view ∈ t.table, s.channels ≤ (view.read t.buffers.input).size

/-- Buffers with the sizes of drawn ones: any bytes, any bias, and the input rows in any order. -/
structure Laid (s : Settings) (t : Trial) : Prop where
  input_size : (t.buffers.input.size : Int) = s.inputSize
  weights_size : (t.weights.size : Int) = s.channels * s.kernelSize
  packed_size : (t.buffers.packed.size : Int) = s.kernelSize * s.packedChannels
  bias_size : (t.buffers.bias.size : Int) = s.packedChannels
  output_size : (t.buffers.output.size : Int) = s.outputSize
  table_perm : t.table.toList.Perm (rowViews s t.buffers.input.size).toList

/-- Buffers with the sizes and ranges of drawn ones: any bytes, any bias within the limit, and the
input rows in any order. -/
structure Drawn (s : Settings) (t : Trial) : Prop where
  input_size : (t.buffers.input.size : Int) = s.inputSize
  weights_size : (t.weights.size : Int) = s.channels * s.kernelSize
  packed_size : (t.buffers.packed.size : Int) = s.kernelSize * s.packedChannels
  bias_size : (t.buffers.bias.size : Int) = s.packedChannels
  output_size : (t.buffers.output.size : Int) = s.outputSize
  bias_range : ∀ b ∈ t.buffers.bias, -biasLimit ≤ b.toInt ∧ b.toInt ≤ biasLimit
  table_perm : t.table.toList.Perm (rowViews s t.buffers.input.size).toList

theorem bias_range_of_all {bias : Array Int32}
    (h : bias.toList.all fun b ↦ -biasLimit ≤ b.toInt ∧ b.toInt ≤ biasLimit) :
    ∀ b ∈ bias, -biasLimit ≤ b.toInt ∧ b.toInt ≤ biasLimit :=
  fun b hb ↦ of_decide_eq_true (List.all_eq_true.1 h b (Array.mem_def.1 hb))

theorem Drawn.laid {s : Settings} {t : Trial} (ht : t.Drawn s) : t.Laid s :=
  ⟨ht.input_size, ht.weights_size, ht.packed_size, ht.bias_size, ht.output_size, ht.table_perm⟩

variable {s : Settings} {t : Trial} (hs : s.Regular) (hheight : 1 ≤ s.kernelHeight)
  (hwidth : 1 ≤ s.kernelWidth)

theorem rowViews_eq (inputSize : Nat) :
    (rowViews s inputSize).toList = (List.range s.tableSize.toNat).map fun (i : Nat) ↦
      ⟨(8 + i * s.effectiveInputStride).toNat, inputSize⟩ := by
  simp [rowViews, Settings.guardSize, Array.toList_range]

include hs hheight hwidth

theorem tableSize_pos : 1 ≤ s.tableSize := by
  have hks := Settings.kernelSize_pos hheight hwidth
  have hx := hs.tap_lt_tableSize hheight (x := 0) (by have := hs.width_pos; omega)
  omega

/-- A view of an input row starts behind the guard and has all channels before its end. -/
theorem rowView_bounds (ht : t.Laid s) {view : View}
    (hview : view ∈ rowViews s t.buffers.input.size) :
    Settings.guardSize ≤ view.start ∧ view.start + s.channels ≤ view.stop ∧
      view.stop = t.buffers.input.size := by
  have hpos := tableSize_pos hs hheight hwidth
  have hstride := hs.channels_le_inputStride
  have hchannels := hs.channels_pos
  have hsize := ht.input_size
  have hguard : Settings.guardSize = 8 := rfl
  simp only [rowViews, Array.mem_map, Array.mem_range] at hview
  obtain ⟨i, hi, rfl⟩ := hview
  have hrow : (i : Int) * s.effectiveInputStride ≤ (s.tableSize - 1) * s.effectiveInputStride :=
    mul_le_mul_of_nonneg_right (by omega) (by omega)
  have hstart : 0 ≤ (i : Int) * s.effectiveInputStride := mul_nonneg (by omega) (by omega)
  rw [Settings.inputSize] at hsize
  refine ⟨?_, ?_, rfl⟩ <;> dsimp only <;> omega

omit hs hheight hwidth in
theorem Laid.mem_rowViews (ht : t.Laid s) {view : View} (hview : view ∈ t.table) :
    view ∈ rowViews s t.buffers.input.size :=
  Array.mem_def.2 ((ht.table_perm.mem_iff).1 (Array.mem_def.1 hview))

theorem Laid.table_size (ht : t.Laid s) : (t.table.size : Int) = s.tableSize := by
  have hpos := tableSize_pos hs hheight hwidth
  have hlen := ht.table_perm.length_eq
  simp only [Array.length_toList, rowViews, Array.size_map, Array.size_range] at hlen
  omega

theorem Laid.fits (ht : t.Laid s) : t.Fits s := by
  refine ⟨ht.input_size, ht.weights_size, ht.bias_size, ht.output_size,
    ht.table_size hs hheight hwidth, fun view hview ↦ ?_⟩
  have hchannels := hs.channels_pos
  have hbounds := rowView_bounds hs hheight hwidth ht (ht.mem_rowViews hview)
  simp only [View.read, Array.size_extract]
  omega

theorem Drawn.fits (ht : t.Drawn s) : t.Fits s := ht.laid.fits hs hheight hwidth

end Depthwise.Trial
