import Depthwise.Proofs.Convolution.Exactness
import Depthwise.Proofs.Kernel.Agreement
import Depthwise.Proofs.Weights.Packing
import Depthwise.Session.Trial

namespace Depthwise.Session

open Kernel (Call FitsLane)

variable {config : Config} {t : Trial} {params : FixedPoint.Params} {tile : Int}

def repacked (t : Trial) (packed : Bytes) : Trial := { t with buffers := { t.buffers with packed } }

theorem fits_repacked {s : Settings} (ht : t.Fits s) (packed : Bytes) :
    (repacked t packed).Fits s :=
  ⟨ht.input_size, ht.weights_size, ht.bias_size, ht.output_size, ht.table_size, ht.view_room⟩

variable (hheight : 1 ≤ config.kernelHeight) (hwidth : 1 ≤ config.kernelWidth)
  (ht : t.Fits config.toSettings) (htile : 1 ≤ tile)
  (hroom : Weights.tileCount tile config.channels * tile * config.kernelSize ≤
    t.buffers.packed.size)

theorem kernelCall_step : (kernelCall config t params).step = config.tapStep.toNat := by
  change (config.inputIncrement.fdiv Settings.entrySize).toNat = _
  rw [Settings.inputIncrement, Int.mul_fdiv_cancel _ (by decide)]

theorem kernelCall_stride :
    (kernelCall config t params).stride = config.effectiveOutputStride.toNat := by
  change (config.channels + (config.effectiveOutputStride - config.channels)).toNat = _
  rw [add_sub_cancel]

section Fitting

include hheight hwidth ht htile hroom

theorem kernelCall_fits : (kernelCall config t params).Fits config.kernelSize tile := by
  have hs := config.regular
  have hstep := hs.tapStep_pos hheight
  have hbias := ht.bias_size
  have hout := ht.output_size
  have hsize := ht.table_size
  refine ⟨Settings.kernelSize_pos hheight hwidth, htile, hs.channels_pos,
    zero_le_one.trans hs.width_pos, ?_, ?_, hroom, ?_, ?_, ?_, ?_⟩
  · exact mul_nonneg (by omega) (by decide)
  · exact sub_nonneg.2 hs.channels_le_outputStride
  · exact hs.channels_le_packedChannels.trans hbias.ge
  · intro x hx
    rw [kernelCall_step, Int.toNat_of_nonneg (by omega)]
    exact (hs.tap_lt_tableSize hheight hx).trans hsize.ge
  · intro x _ k _ view hview
    exact ht.view_room view (Array.mem_of_getElem? hview)
  · intro _
    change (config.width - 1) * (config.channels + (config.effectiveOutputStride -
      config.channels)) + config.channels ≤ t.buffers.output.size
    rw [add_sub_cancel, hout]
    rfl

theorem pack_ok : ∃ packed,
    Weights.pack config.channels config.kernelSize tile t.weights t.buffers.packed = .ok packed ∧
      packed.size = t.buffers.packed.size ∧
      ∀ c < config.channels.toNat, ∀ k < config.kernelSize.toNat,
        packed.getD (Weights.place config.kernelSize tile c k).toNat 0 =
          t.weights.getD (c * config.kernelSize.toNat + k) 0 := by
  have hks := Settings.kernelSize_pos hheight hwidth
  have hchannels := config.regular.channels_pos
  have hweights := ht.weights_size
  obtain ⟨kernelSize, hkernel⟩ := Int.eq_ofNat_of_zero_le (zero_le_one.trans hks)
  obtain ⟨channels, hcount⟩ := Int.eq_ofNat_of_zero_le (zero_le_one.trans hchannels)
  obtain ⟨tile, rfl⟩ := Int.eq_ofNat_of_zero_le (zero_le_one.trans htile)
  rw [hkernel, hcount] at hweights
  rw [hkernel, hcount, Weights.tileCount_natCast (by omega), mul_right_comm] at hroom
  have hfits : channels * kernelSize ≤ t.weights.size := by exact_mod_cast hweights.ge
  have hpacked : Weights.tiles tile channels * kernelSize * tile ≤ t.buffers.packed.size := by
    exact_mod_cast hroom
  have hspan : ¬ Weights.Excessive channels kernelSize tile :=
    Weights.not_excessive_of_pos (by omega) (by omega)
  obtain ⟨packed, hpack, hsize, hslot, -⟩ := Weights.pack_spec (by omega) hfits hpacked hspan
  rw [hkernel, hcount]
  refine ⟨packed, hpack, hsize, fun c hc k hk ↦ ?_⟩
  rw [Int.toNat_natCast] at hc hk
  rw [Weights.place_natCast, Int.toNat_natCast, Int.toNat_natCast, Array.getD_eq_getD_getElem?,
    hslot c hc k hk]
  rfl

end Fitting

theorem kernelCall_accumulator {packed : Bytes}
    (hread : ∀ c < config.channels.toNat, ∀ k < config.kernelSize.toNat,
      packed.getD (Weights.place config.kernelSize tile c k).toNat 0 =
        t.weights.getD (c * config.kernelSize.toNat + k) 0)
    (x : Nat) {c : Nat} (hc : c < config.channels.toNat) :
    (kernelCall config (repacked t packed) params).accumulator config.kernelSize tile x c =
      t.accumulator config.toSettings x c := by
  have hsample : ∀ k, (kernelCall config (repacked t packed) params).sample x k c =
      t.sample config.toSettings x k c := by
    intro k
    rw [Call.sample, kernelCall_step, Trial.sample]
    rfl
  have hbias : (kernelCall config (repacked t packed) params).buffers.bias = t.buffers.bias := rfl
  rw [Call.accumulator, Trial.accumulator, hbias, Finset.sum_congr rfl fun k hk ↦ ?_]
  have hweight : (kernelCall config (repacked t packed) params).weight config.kernelSize tile c k =
      t.weights.getD (c * config.kernelSize.toNat + k) 0 := hread c hc k (Finset.mem_range.1 hk)
  rw [hweight, hsample k, Convolution.product]
  rfl

/-- An output whose rows hold the codes of some accumulators and which is otherwise as before. -/
structure Written (s : Settings) (params : FixedPoint.Params) (accumulators : List (List Int32))
    (before after : Bytes) : Prop where
  size_eq : after.size = before.size
  row_eq : ∀ x < s.width.toNat, ∃ row codes, accumulators[x]? = some row ∧
    FixedPoint.requantizeLanes params (row.map (·.toInt64)).toArray = .ok codes ∧
    codes.size = s.channels.toNat ∧
    ∀ c < s.channels.toNat, after[x * s.effectiveOutputStride.toNat + c]? = codes[c]?
  rest_eq : ∀ i, (∀ x < s.width.toNat, i < x * s.effectiveOutputStride.toNat ∨
    x * s.effectiveOutputStride.toNat + s.channels.toNat ≤ i) → after[i]? = before[i]?

theorem written_filled (hp : params.Sound)
    (hfits : (kernelCall config t params).Fits config.kernelSize tile) (acc : Nat → Nat → Int32) :
    Written config.toSettings params
      (matrix config.width.toNat config.channels.toNat acc) t.buffers.output
      ((kernelCall config t params).filled fun x c ↦
        params.words.store (acc x c).toInt64).buffers.output := by
  refine ⟨Call.size_filled _, fun x hx ↦ ?_, fun i hi ↦ ?_⟩
  · refine ⟨(List.range config.channels.toNat).map (acc x),
      ((List.range config.channels.toNat).map fun c ↦
        params.words.store (acc x c).toInt64).toArray, ?_, ?_, by simp, fun c hc ↦ ?_⟩
    · rw [matrix, List.getElem?_map, List.getElem?_range hx]
      rfl
    · rw [FixedPoint.requantizeLanes, FixedPoint.ofParams_eq hp, List.map_map]
      simp only [Except.map, List.map_toArray, List.map_map]
      rfl
    · rw [← kernelCall_stride, hfits.getElem?_filled _ hx hc, List.getElem?_toArray,
        List.getElem?_map, List.getElem?_range hc]
      rfl
  · refine hfits.getElem?_filled_of_outside _ fun x hx ↦ ?_
    rw [kernelCall_stride]
    exact hi x hx

include hheight hwidth ht htile hroom in
/-- Packing and the vector kernel together store the codes of the exact accumulators, reduced to
words, for any tile width and any number of taps. They are those of the convolution, which yields
them where its samples have room. -/
theorem vector_run_eq_convolution {path : FixedPoint.Path} {scale : Double}
    {zeroPoint qmin qmax : Int}
    (hparams : FixedPoint.derive path scale zeroPoint qmin qmax = .ok params) :
    ∃ accumulators packed output,
      Convolution.accumulators config.toSettings t =
        (if Convolution.Roomy config.toSettings then .ok accumulators
        else .error (.fault (Convolution.lack config.toSettings))) ∧
      accumulators.map (·.map (·.toInt)) =
        matrix config.width.toNat config.channels.toNat (t.word config.toSettings) ∧
      Weights.pack config.channels config.kernelSize tile t.weights t.buffers.packed = .ok packed ∧
      Kernel.Vector.run config.kernelSize tile (kernelCall config (repacked t packed) params) =
        ⟨{ t.buffers with packed, output }, none⟩ ∧
      Written config.toSettings params accumulators t.buffers.output output := by
  have hs := config.regular
  have hp := FixedPoint.derive_sound hparams
  obtain ⟨packed, hpack, hsize, hread⟩ := pack_ok hheight hwidth ht htile hroom
  have hfits : (kernelCall config (repacked t packed) params).Fits config.kernelSize tile :=
    kernelCall_fits hheight hwidth (fits_repacked ht packed) htile
      (hroom.trans (by exact_mod_cast hsize.ge))
  have hrun : Kernel.Vector.run config.kernelSize tile
      (kernelCall config (repacked t packed) params) =
        (kernelCall config (repacked t packed) params).filled fun x c ↦
          params.words.store (Int32.ofInt (t.accumulator config.toSettings x c)).toInt64 := by
    obtain ⟨kernelSize, tile, hkernel, rfl⟩ := hfits.exists_natCast
    have hfits' := hfits
    have hzero : FitsLane 127 := by decide
    rw [hkernel] at hfits' ⊢
    rw [Kernel.Vector.run_eq hfits' hp hzero hzero, ← hkernel]
    refine Call.filled_congr fun x _ c hc ↦ ?_
    rw [kernelCall_accumulator hread x hc]
    rfl
  refine ⟨matrix config.width.toNat config.channels.toNat fun x c ↦
    Int32.ofInt (t.accumulator config.toSettings x c), packed, _, ?_, map_matrix _ _, hpack, hrun,
    written_filled hp hfits _⟩
  split_ifs with hsamples
  · exact Convolution.accumulators_ok hs hheight hwidth ht hsamples
  · exact Convolution.accumulators_lack hs hheight hwidth ht hsamples

def tallConfig : Config :=
  ⟨{ width := 2, kernelHeight := 2, channels := 3, tile := 2, outputStride := 5 }, by decide⟩

def wrappingTrial : Trial where
  buffers := {
    input := #[9, 9, 9, 9, 9, 9, 9, 9, 255, 0, 3, 200, 17, 80, 254, 1, 0, 6, 7, 128]
    packed := #[0, 1, 2, 3, 4, 5, 6, 7]
    bias := #[0x7fffffff, -0x80000000, 5, 0]
    output := #[1, 2, 3, 4, 5, 6, 7, 8] }
  weights := #[255, 250, 0, 3, 77, 128]
  table := #[⟨8, 20⟩, ⟨11, 20⟩, ⟨17, 20⟩, ⟨8, 11⟩]

theorem vector_run_eq_convolution_wrapping :
    ∃ accumulators packed output,
      Convolution.accumulators tallConfig.toSettings wrappingTrial = .ok accumulators ∧
      Weights.pack 3 2 4 wrappingTrial.weights wrappingTrial.buffers.packed = .ok packed ∧
      Kernel.Vector.run 2 4 (kernelCall tallConfig (repacked wrappingTrial packed)
        ⟨1610612736, 2, 3, 1, 5, 2, 250, .vector⟩) =
          ⟨{ wrappingTrial.buffers with packed, output }, none⟩ ∧
      Written tallConfig.toSettings ⟨1610612736, 2, 3, 1, 5, 2, 250, .vector⟩ accumulators
        wrappingTrial.buffers.output output := by
  have hfits : wrappingTrial.Fits tallConfig.toSettings :=
    ⟨by decide, by decide, by decide, by decide, by decide, by decide⟩
  have hparams : FixedPoint.derive .vector (.ofRat (3 / 16)) 5 2 250 =
      .ok ⟨1610612736, 2, 3, 1, 5, 2, 250, .vector⟩ := by decide +kernel
  have htile : (1 : Int) ≤ 4 := by decide
  obtain ⟨accumulators, packed, output, haccs, -, hrun⟩ :=
    vector_run_eq_convolution (by decide) (by decide) hfits htile (by decide) hparams
  rw [if_pos (by decide)] at haccs
  exact ⟨accumulators, packed, output, haccs, hrun⟩

/-- More samples than an array has places, of buffers that are small beside them. -/
def immenseConfig : Config :=
  ⟨{ width := 0x20000000, kernelWidth := 0x20000000, channels := 32 }, by decide⟩

theorem vector_run_without_convolution :
    immenseConfig.outputSize ≤ 0x400000000 ∧ immenseConfig.inputSize ≤ 0x1000000000 ∧
    ∃ t : Trial, t.Fits immenseConfig.toSettings ∧
      Weights.tileCount 1 immenseConfig.channels * 1 * immenseConfig.kernelSize ≤
        t.buffers.packed.size ∧
      Convolution.accumulators immenseConfig.toSettings t = .error (.fault .unusableValue) := by
  have hdrawn := Trial.loudest_drawn immenseConfig.regular (by decide) (by decide) (.refl _)
  refine ⟨by decide, by decide, _, hdrawn.fits immenseConfig.regular (by decide) (by decide), ?_,
    Convolution.accumulators_of_lt (by decide) _⟩
  rw [hdrawn.packed_size]
  decide

end Depthwise.Session
