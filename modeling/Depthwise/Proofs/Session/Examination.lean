import Depthwise.Proofs.Session.Stages

namespace Depthwise.Session

open Kernel (Call)

structure Contrasting (s : Settings) (t : Trial) : Prop where
  input : Contrast.common? (values t.buffers.input) = none
  weights : Contrast.common? (values t.weights) = none
  accumulators : ∃ accs, Convolution.accumulators s t = .ok accs ∧
    Contrast.common? (accs.map (·.map (·.toInt))).flatten = none

namespace Contrasting

variable {config : Config} {t : Trial} (h : Contrasting config.toSettings t)
  (hheight : 1 ≤ config.kernelHeight) (hwidth : 1 ≤ config.kernelWidth)
  (ht : t.Fits config.toSettings)

include h hheight hwidth ht

/-- The guard on the accumulators is only reached by samples that have room. -/
theorem room : Convolution.Roomy config.toSettings := by
  obtain ⟨accs, haccs, -⟩ := h.accumulators
  by_contra hroom
  rw [Convolution.accumulators_lack config.regular hheight hwidth ht hroom] at haccs
  cases haccs

theorem words : ∀ v, ¬ Contrast.Uniform (wordsOf config t) v := by
  obtain ⟨accs, haccs, hrange⟩ := h.accumulators
  obtain ⟨accs', haccs', hwords⟩ := Convolution.accumulators_words config.regular hheight hwidth ht
    (h.room hheight hwidth ht)
  cases haccs.symm.trans haccs'
  rw [hwords] at hrange
  exact Contrast.common?_eq_none_iff.1 hrange

end Contrasting

structure Prepared (config : Config) (t : Trial) (packed : Bytes) (params : Parameters) : Prop where
  packed_eq : Weights.pack config.channels config.kernelSize config.tile t.weights
    t.buffers.packed = .ok packed
  packed_size : packed.size = t.buffers.packed.size
  packed_read : ∀ c < config.channels.toNat, ∀ k < config.kernelSize.toNat,
    packed.getD (Weights.place config.kernelSize config.tile c k).toNat 0 =
      t.weights.getD (c * config.kernelSize.toNat + k) 0
  output_eq : Affine.ofAccumulators (matrix config.width.toNat config.channels.toNat
    (t.accumulator config.toSettings)).flatten = .ok params.output
  sane : Affine.Sane params.output.scale
  meets : params.output.Meets config.qmin config.qmax params.requantization
  params_run : ∀ {σ : Type} (state : σ),
    (Parameters.derive (FixedPoint.Path.vector.routine σ) (FixedPoint.Path.scalar.routine σ)
      (matrix config.width.toNat config.channels.toNat (t.accumulator config.toSettings)).flatten
      config.qmin config.qmax).run.run state = (.ok params, state)

variable {config : Config} {t : Trial} {packed : Bytes} {params : Parameters}

def preparedCall (config : Config) (t : Trial) (packed : Bytes) (params : Parameters) : Call :=
  kernelCall config (repacked t packed) params.requantization

section Drawn

variable (hheight : 1 ≤ config.kernelHeight) (hwidth : 1 ≤ config.kernelWidth)
  (hks : config.kernelSize ≤ 131071) (ht : t.Drawn config.toSettings)

include hheight hwidth hks ht

omit hheight hwidth in
theorem matrix_word : matrix config.width.toNat config.channels.toNat (t.word config.toSettings) =
    matrix config.width.toNat config.channels.toNat (t.accumulator config.toSettings) :=
  matrix_congr fun x _ c _ ↦
    Trial.word_eq_accumulator (Convolution.fitsLane_accumulator ht hks x c)

/-- Packing and the parameter routines accept every drawn trial. -/
theorem exists_prepared : ∃ packed params, Prepared config t packed params := by
  have hs := config.regular
  have hfits := ht.fits hs hheight hwidth
  have hcells : (0, 0) ∈ cells config.width.toNat config.channels.toNat :=
    mem_cells.2 ⟨by have := hs.width_pos; omega, by have := hs.channels_pos; omega⟩
  obtain ⟨packed, hpack, hsize, hread⟩ :=
    pack_ok hheight hwidth hfits hs.tile_pos (packed_room ht.laid)
  have hne : (matrix config.width.toNat config.channels.toNat
      (t.accumulator config.toSettings)).flatten ≠ [] := by
    rw [flatten_matrix]
    simpa using List.ne_nil_of_mem hcells
  have hrange : ∀ a ∈ (matrix config.width.toNat config.channels.toNat
      (t.accumulator config.toSettings)).flatten, |a| ≤ 2 ^ 31 := by
    intro a ha
    rw [flatten_matrix] at ha
    obtain ⟨⟨x, c⟩, -, rfl⟩ := List.mem_map.1 ha
    obtain ⟨hlow, hhigh⟩ := Convolution.fitsLane_accumulator ht hks x c
    exact abs_le.2 ⟨by norm_num; omega, by norm_num; omega⟩
  obtain ⟨params, houtput, hsane, hmeets, hrun⟩ := Parameters.derive_run hne hrange
    ⟨hs.qmin_nonneg, hs.qmin_le_qmax, hs.qmax_le⟩
  exact ⟨packed, params, hpack, hsize, hread, houtput, hsane, hmeets, hrun⟩

variable (hcontrast : Contrasting config.toSettings t) (hprep : Prepared config t packed params)

include hcontrast hprep

/-- Up to the call of the kernel nothing can go wrong. -/
theorem examine_run {σ : Type} (kernel : Kernel σ) (index : Int) (s : Session σ) :
    (examine (Bench.ofKernel kernel) config index t).run.run s =
      (do
        let left ← runKernel (Bench.ofKernel kernel) config (repacked t packed)
          params.requantization
        compare config index s.seed (paddingOf config t) params.output
          (matrix config.width.toNat config.channels.toNat (t.accumulator config.toSettings))
          left.output : Run σ Metrics).run.run s := by
  have hfits := ht.fits config.regular hheight hwidth
  have hpack : Convolves (Bench.ofKernel kernel) config t s.outside packed s.outside :=
    ⟨⟨Contrast.common?_eq_none_iff.1 hcontrast.input,
      Contrast.common?_eq_none_iff.1 hcontrast.weights, run_liftM_ok hprep.packed_eq s.outside⟩,
      hcontrast.room hheight hwidth hfits⟩
  have hrange : Contrast.checkRange (wordsOf config t) (some index) (some s.seed) = .ok () :=
    Contrast.checkRange_ok _ _ (hcontrast.words hheight hwidth hfits)
  have hparams : (Parameters.derive (FixedPoint.Path.vector.routine σ)
      (FixedPoint.Path.scalar.routine σ) (wordsOf config t) config.qmin config.qmax).run.run
        s.outside = (.ok params, s.outside) := by
    rw [wordsOf, matrix_word hks ht]
    exact hprep.params_run s.outside
  rw [examine_of_convolves hheight hwidth hfits hpack, fromRange, matrix_word hks ht]
  refine (run_bind_ok (run_liftM_ok hrange s)).trans ?_
  exact run_bind_ok (run_call hparams)

theorem examine_of_raised {σ : Type} {kernel : Kernel σ} {s : Session σ}
    {outcome : Kernel.Outcome} {outside : σ}
    (hrun : (kernel.run (preparedCall config t packed params)).run s.outside = (outcome, outside))
    {e : Error} (herror : outcome.error? = some e) (index : Int) :
    (examine (Bench.ofKernel kernel) config index t).run.run s =
      (.error e, { s with outside }) := by
  have hleft := runKernel_run (Bench.ofKernel kernel) hrun
  rw [herror] at hleft
  rw [examine_run hheight hwidth hks ht hcontrast hprep]
  exact run_bind_error hleft

/-- A kernel that finishes is judged by the output that it leaves. -/
theorem examine_of_outcome {σ : Type} {kernel : Kernel σ} {s : Session σ}
    {outcome : Kernel.Outcome} {outside : σ}
    (hrun : (kernel.run (preparedCall config t packed params)).run s.outside = (outcome, outside))
    (herror : outcome.error? = none)
    (hsize : outcome.buffers.output.size = t.buffers.output.size) (index : Int) :
    ∃ metrics history,
      (metrics.numFailures = 0 ↔ ∀ a ∈ cells config.width.toNat config.channels.toNat,
        exceeds config params.output (t.accumulator config.toSettings) outcome.buffers.output a =
          false) ∧
      (examine (Bench.ofKernel kernel) config index t).run.run s =
        (verdict config index s.seed (paddingOf config t) params.output
          (t.accumulator config.toSettings) outcome.buffers.output metrics,
          { s with outside, history }) := by
  have hleft := runKernel_run (Bench.ofKernel kernel) hrun
  rw [herror] at hleft
  have hwritten : (outcome.buffers.output.size : Int) = config.outputSize := by
    rw [hsize, ht.output_size]
  obtain ⟨metrics, -, hzero, hcompare⟩ := compare_run params.output
    (t.accumulator config.toSettings) hwritten index s.seed (paddingOf config t) { s with outside }
  refine ⟨metrics, noted config index s.seed metrics s.history, hzero, ?_⟩
  rw [examine_run hheight hwidth hks ht hcontrast hprep, run_bind_ok hleft]
  exact hcompare

end Drawn

end Depthwise.Session
