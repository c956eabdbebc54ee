import Depthwise.Proofs.Session.Examination

namespace Depthwise.Session

open Kernel (Call Family FitsLane)

variable {config : Config} {t : Trial} {packed : Bytes} {params : Parameters}

def shippedOutput (family : Family) (config : Config) (t : Trial) (packed : Bytes)
    (params : Parameters) : Bytes :=
  (family.run config.kernelSize config.tile
    (preparedCall config t packed params)).buffers.output

theorem abs_accumulator_le_two_pow (ht : t.Drawn config.toSettings)
    (hks : config.kernelSize ≤ 131071) (x c : Nat) :
    |t.accumulator config.toSettings x c| ≤ 2 ^ 32 := by
  obtain ⟨hlow, hhigh⟩ := Convolution.fitsLane_accumulator ht hks x c
  exact abs_le.2 ⟨by norm_num; omega, by norm_num; omega⟩

variable (hheight : 1 ≤ config.kernelHeight) (hwidth : 1 ≤ config.kernelWidth)
  (hks : config.kernelSize ≤ 131071) (ht : t.Drawn config.toSettings)
  (hprep : Prepared config t packed params)

include hheight hwidth ht hprep

theorem preparedCall_fits :
    (preparedCall config t packed params).Fits config.kernelSize config.tile := by
  have hs := config.regular
  have hfits := ht.fits hs hheight hwidth
  have hsize : (packed.size : Int) = t.buffers.packed.size := by exact_mod_cast hprep.packed_size
  exact kernelCall_fits hheight hwidth (fits_repacked hfits packed) hs.tile_pos
    ((packed_room ht.laid).trans_eq hsize.symm)

include hks

theorem shipped_run (family : Family) :
    family.run config.kernelSize config.tile (preparedCall config t packed params) =
      (preparedCall config t packed params).filled fun x c ↦
        params.requantization.code (t.accumulator config.toSettings x c) := by
  have hfits := preparedCall_fits hheight hwidth ht hprep
  have hacc : ∀ x, ∀ c < config.channels.toNat,
      (preparedCall config t packed params).accumulator config.kernelSize config.tile x c =
        t.accumulator config.toSettings x c :=
    fun x c hc ↦ kernelCall_accumulator hprep.packed_read x hc
  have hlane : ∀ x < (preparedCall config t packed params).outputWidth.toNat,
      ∀ c < config.channels.toNat, FitsLane ((preparedCall config t packed params).accumulator
        config.kernelSize config.tile x c) := by
    intro x _ c hc
    rw [hacc x c hc]
    exact Convolution.fitsLane_accumulator ht hks x c
  have hzero : FitsLane 127 := by decide
  rw [Family.run_eq hfits hprep.meets.sound hzero hzero hlane family]
  exact Call.filled_congr fun x _ c hc ↦ by rw [hacc x c hc]; rfl

theorem shippedOutput_code (family : Family) {x c : Nat} (hx : x < config.width.toNat)
    (hc : c < config.channels.toNat) :
    (shippedOutput family config t packed params)[x * config.effectiveOutputStride.toNat + c]? =
      some (params.requantization.code (t.accumulator config.toSettings x c)) := by
  have hfits := preparedCall_fits hheight hwidth ht hprep
  rw [shippedOutput, shipped_run hheight hwidth hks ht hprep, ← kernelCall_stride]
  exact hfits.getElem?_filled _ hx hc

omit hheight hwidth in
theorem exceeds_iff (written : Bytes) (x c : Nat) :
    exceeds config params.output (t.accumulator config.toSettings) written (x, c) = true ↔
      3 / 5 < |(params.output.expected config.qmin config.qmax
        (t.accumulator config.toSettings x c)).toRat -
          observedAt config params.output written x c| :=
  exceeds_iff_lt hprep.sane hprep.meets.zeroPoint_range (abs_accumulator_le_two_pow ht hks x c)
    written

theorem observedAt_shipped (family : Family) {x c : Nat} (hx : x < config.width.toNat)
    (hc : c < config.channels.toNat) :
    observedAt config params.output (shippedOutput family config t packed params) x c =
      FixedPoint.requantize params.requantization (t.accumulator config.toSettings x c) -
        params.output.zeroPoint := by
  rw [observedAt, Array.getD_eq_getD_getElem?,
    shippedOutput_code hheight hwidth hks ht hprep family hx hc, Option.getD_some,
    FixedPoint.toNat_code hprep.meets.sound]

/-- The code of a shipped kernel is always less than a code away from its expected value. -/
theorem abs_shipped_sub_expected_lt (family : Family) {x c : Nat} (hx : x < config.width.toNat)
    (hc : c < config.channels.toNat) :
    |(observedAt config params.output (shippedOutput family config t packed params) x c : Rat) -
      (params.output.expected config.qmin config.qmax
        (t.accumulator config.toSettings x c)).toRat| < 751 / 1000 := by
  rw [observedAt_shipped hheight hwidth hks ht hprep family hx hc]
  exact Affine.abs_code_sub_expected_lt hprep.meets hprep.sane
    (abs_accumulator_le_two_pow ht hks x c)

theorem exceeds_shipped_iff (family : Family) {x c : Nat} (hx : x < config.width.toNat)
    (hc : c < config.channels.toNat) :
    exceeds config params.output (t.accumulator config.toSettings)
        (shippedOutput family config t packed params) (x, c) = true ↔
      params.output.Overshoots config.qmin config.qmax (t.accumulator config.toSettings x c) := by
  rw [exceeds_iff hks ht hprep,
    observedAt_shipped hheight hwidth hks ht hprep family hx hc]
  exact Affine.exceeds_iff_overshoots hprep.meets hprep.sane (abs_accumulator_le_two_pow ht hks x c)

omit hheight hwidth hks ht hprep in
theorem verdict_of_undescribed (hdescribe : ¬ config.Describable) (index seed : Int)
    (padding : List (Int × UInt8)) (output : Affine) (acc : Nat → Nat → Int) (written : Bytes)
    (metrics : Metrics) : verdict config index seed padding output acc written metrics =
      .error (.fault .unusableValue) := by
  rw [verdict, if_neg hdescribe]

omit hheight hwidth hks ht hprep in
/-- Where a code is past the tolerance, the verdict names a place that comes no later, if it can be
written. -/
theorem verdict_of_exceeds {output : Affine} {acc : Nat → Nat → Int} {written : Bytes} {x c : Nat}
    (hzero : 0 ≤ output.zeroPoint ∧ output.zeroPoint ≤ 255)
    (hx : x < config.width.toNat) (hc : c < config.channels.toNat)
    (h : exceeds config output acc written (x, c) = true) (index seed : Int)
    (padding : List (Int × UInt8)) (metrics : Metrics) :
    ∃ x' c' : Nat, x' < config.width.toNat ∧ c' < config.channels.toNat ∧
      ((x', c') = (x, c) ∨ Precedes (x', c') (x, c)) ∧
      exceeds config output acc written (x', c') = true ∧
      verdict config index seed padding output acc written metrics =
        .error (if Legible config.toSettings index seed then
          .failure ⟨.toleranceExceeded x' c'
            (output.expected config.qmin config.qmax (acc x' c'))
            (observedAt config output written x' c') Affine.tolerance, some index, some seed⟩
        else .fault .unusableValue) := by
  obtain ⟨⟨x', c'⟩, hmem, hfind, hexceeds, hfirst⟩ := exists_find?_of_pairwise
    (pairwise_cells config.width.toNat config.channels.toNat) (mem_cells.2 ⟨hx, hc⟩) h
  obtain ⟨hx', hc'⟩ := mem_cells.1 hmem
  refine ⟨x', c', hx', hc', hfirst, hexceeds, ?_⟩
  by_cases hdescribe : config.Describable
  · rw [verdict, if_pos hdescribe, hfind]
    exact congrArg _ (raise_exceeded hdescribe hx' hc' _ (abs_observedAt_le hzero _ x' c'))
  · rw [verdict_of_undescribed hdescribe, if_neg fun h ↦ hdescribe h.describable]

theorem firstChanged_shipped (family : Family) :
    Output.firstChanged (paddingOf config t) (shippedOutput family config t packed params) =
      .ok none := by
  have hfits := preparedCall_fits hheight hwidth ht hprep
  rw [shippedOutput, shipped_run hheight hwidth hks ht hprep]
  refine Output.firstChanged_padding config.regular ht.output_size (Call.size_filled _)
    fun i hi ↦ hfits.getElem?_filled_of_outside _ fun x hx ↦ ?_
  have hstride : (preparedCall config t packed params).stride =
      config.effectiveOutputStride.toNat := kernelCall_stride
  rw [hstride]
  exact hi x hx

end Depthwise.Session
