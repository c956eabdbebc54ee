import Depthwise.Proofs.Config.Acceptance
import Depthwise.Proofs.Trial.Draws

namespace Depthwise

def Settings.bufferBytes (s : Settings) : List Int :=
  [s.inputSize, s.channels * s.kernelSize, s.kernelSize * s.packedChannels, 4 * s.packedChannels,
    s.outputSize]

theorem View.getElem?_read (view : View) (input : Bytes) (i : Nat) : (view.read input)[i]? =
    if view.start + i < view.stop then input[view.start + i]? else none := by
  rw [View.read, Array.getElem?_extract]
  split_ifs
  · rfl
  · omega
  · exact (Array.getElem?_eq_none (by omega)).symm
  · rfl

/-- A view that starts behind the first bytes of its input does not depend on them. -/
theorem View.read_eq_of_start {view : View} {input input' : Bytes} {guard : Nat}
    (hstart : guard ≤ view.start) (h : ∀ i, guard ≤ i → input'[i]? = input[i]?) :
    view.read input' = view.read input := by
  apply Array.ext_getElem?
  intro i
  rw [View.getElem?_read, View.getElem?_read, h _ (by omega)]

namespace Trial

/-- A generated trial: sizes and ranges, packed bytes that wait for their weights, and a table that
is a permutation of the views of the input rows, none of them too short or open to the guard. -/
structure WellFormed (s : Settings) (t : Trial) : Prop where
  input_size : (t.buffers.input.size : Int) = s.inputSize
  weights_size : (t.weights.size : Int) = s.channels * s.kernelSize
  packed_size : (t.buffers.packed.size : Int) = s.kernelSize * s.packedChannels
  packed_eq : ∀ b ∈ t.buffers.packed, b = 127
  bias_size : (t.buffers.bias.size : Int) = s.packedChannels
  bias_range : ∀ b ∈ t.buffers.bias, -10000 ≤ b.toInt ∧ b.toInt ≤ 10000
  output_size : (t.buffers.output.size : Int) = s.outputSize
  table_size : (t.table.size : Int) = s.tableSize
  table_perm : t.table.toList.Perm ((List.range s.tableSize.toNat).map fun (i : Nat) ↦
    ⟨(8 + i * s.effectiveInputStride).toNat, t.buffers.input.size⟩)
  view_room : ∀ view ∈ t.table, s.channels ≤ (view.read t.buffers.input).size
  view_guarded : ∀ view ∈ t.table, ∀ input : Bytes,
    (∀ i, 8 ≤ i → input[i]? = t.buffers.input[i]?) → view.read input = view.read t.buffers.input

variable {s : Settings} {t : Trial}

theorem storable_iff {width : Nat} {count : Int} (hcount : 0 ≤ count) :
    Storable width count ↔ width * count ≤ largestBuffer := by
  rw [Storable, mul_comm]
  exact and_iff_right hcount

theorem allocatable_iff (hs : s.Documented) :
    Allocatable s ↔ ∀ bytes ∈ s.bufferBytes, bytes ≤ largestBuffer := by
  have hroomy := hs.roomy
  have hchannels := hs.channels_pos
  have hkernelSize := hroomy.kernelSize_pos
  have hguard : Settings.guardSize = 8 := rfl
  have hinput : 0 ≤ s.inputSize := by
    have := hroomy.le_inputSize
    omega
  have hpackedChannels : 0 ≤ s.packedChannels := by
    have := hs.channels_le_packedChannels
    omega
  have houtput : 0 ≤ s.outputSize := by
    have := hroomy.channels_le_outputSize
    omega
  have hweights : 0 ≤ s.channels * s.kernelSize := mul_nonneg (by omega) (by omega)
  have hpacked : 0 ≤ s.kernelSize * s.packedChannels := mul_nonneg (by omega) hpackedChannels
  rw [allocatable_iff_storable, storable_iff hinput, storable_iff hweights, storable_iff hpacked,
    storable_iff hpackedChannels, storable_iff houtput]
  simp [Settings.bufferBytes]

theorem Drawn.wellFormed (hs : s.Documented) (ht : t.Drawn s) (hpacked : t.Unpacked) :
    t.WellFormed s := by
  have hfits := ht.fits hs.toRegular hs.kernelHeight_pos hs.kernelWidth_pos
  refine ⟨ht.input_size, ht.weights_size, ht.packed_size, fun b hb ↦ ?_, ht.bias_size,
    ht.bias_range, ht.output_size, hfits.table_size, ?_, hfits.view_room, fun view hview ↦ ?_⟩
  · apply UInt8.toNat_inj.1
    exact Int.ofNat_inj.1 (hpacked b hb)
  · rw [← rowViews_eq]
    exact ht.table_perm
  · intro input hinput
    obtain ⟨hguard, -, -⟩ := rowView_bounds hs.toRegular hs.kernelHeight_pos hs.kernelWidth_pos
      ht.laid (ht.laid.mem_rowViews hview)
    exact View.read_eq_of_start (Int.ofNat_le.1 hguard) hinput

/-- Wherever the stream is, a configuration whose kernel has taps gets a well-formed trial, or is
refused since one of the buffers would be longer than any buffer can be. -/
theorem draw_wellFormed (config : Config) (hheight : 1 ≤ config.kernelHeight)
    (hwidth : 1 ≤ config.kernelWidth) (stream : Random.Stream) :
    ((∀ bytes ∈ config.bufferBytes, bytes ≤ 2 ^ 63 - 1) →
      ∃ t stream', (draw config.toSettings {}).run.run stream = (.ok t, stream') ∧
        t.WellFormed config.toSettings) ∧
    ((∃ bytes ∈ config.bufferBytes, 2 ^ 63 - 1 < bytes) →
      ∃ stream', (draw config.toSettings {}).run.run stream =
        (.error (.fault .unusableValue), stream')) := by
  have hs : config.Documented := ⟨config.regular, hheight, hwidth⟩
  obtain ⟨hdrawn, hrefused⟩ := sized_draw_unpacked config.toSettings none
  constructor
  · intro hroom
    obtain ⟨t, stream', hrun, ht, hpacked⟩ := hdrawn ((allocatable_iff hs).2 hroom) stream
    exact ⟨t, stream', hrun, ht.wellFormed hs hpacked⟩
  · rintro ⟨bytes, hmem, hbytes⟩
    apply hrefused
    intro hallocatable
    exact absurd ((allocatable_iff hs).1 hallocatable bytes hmem) (not_le.2 hbytes)

def gappedConfig : Config where
  width := 3
  kernelHeight := 3
  kernelWidth := 2
  channels := 5
  tile := 4
  inputStride := 7
  outputStride := 9
  sound := by decide

theorem draw_wellFormed_gapped : (∀ bytes ∈ gappedConfig.bufferBytes, bytes ≤ 2 ^ 63 - 1) ∧
    ∃ t stream', (draw gappedConfig.toSettings {}).run.run (.ofSeed 9) = (.ok t, stream') ∧
      t.WellFormed gappedConfig.toSettings := by
  have hroom : ∀ bytes ∈ gappedConfig.bufferBytes, bytes ≤ 2 ^ 63 - 1 := by decide
  exact ⟨hroom, (draw_wellFormed gappedConfig (by decide) (by decide) (.ofSeed 9)).1 hroom⟩

/-- A single row that fills the address space; with the guard it is longer than any buffer. -/
def vastConfig : Config where
  channels := 2 ^ 63
  sound := by decide

theorem not_forall_draw_wellFormed : ¬ ∀ config : Config,
    1 ≤ config.kernelHeight → 1 ≤ config.kernelWidth → ∀ stream : Random.Stream,
      ∃ t stream', (draw config.toSettings {}).run.run stream = (.ok t, stream') ∧
        t.WellFormed config.toSettings := by
  intro h
  obtain ⟨t, stream', hrun, -⟩ := h vastConfig (by decide) (by decide) (.ofSeed 9)
  have hstored : ¬ Allocatable vastConfig.toSettings := by
    intro hallocatable
    exact absurd hallocatable.input.2 (by decide)
  obtain ⟨stream'', hrefused⟩ := (sized_draw vastConfig.toSettings none).2 hstored (.ofSeed 9)
  rw [hrefused] at hrun
  cases hrun

end Trial

end Depthwise
