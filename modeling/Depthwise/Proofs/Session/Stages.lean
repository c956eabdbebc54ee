import Depthwise.Proofs.Contrast
import Depthwise.Proofs.Kernel.Reference
import Depthwise.Proofs.Quantization.Parameters
import Depthwise.Proofs.Session.Comparison

namespace Depthwise

/-- A kernel may write anywhere, but a buffer does not change its length. -/
def Kernel.KeepsSize {σ : Type} (kernel : Kernel σ) : Prop :=
  ∀ call state, ((kernel.run call).run state).1.buffers.output.size = call.buffers.output.size

namespace Session

open Contrast (Uniform)

variable {σ : Type} {bench : Bench σ} {config : Config} {t : Trial} {q : Affine}

def paddingOf (config : Config) (t : Trial) : List (Int × UInt8) :=
  (Output.paddingPlaces config.toSettings).map fun place ↦
    (place, t.buffers.output.getD place.toNat 0)

def wordsOf (config : Config) (t : Trial) : List Int :=
  (matrix config.width.toNat config.channels.toNat (t.word config.toSettings)).flatten

theorem mem_wordsOf {a : Int} : a ∈ wordsOf config t ↔ ∃ x < config.width.toNat,
    ∃ c < config.channels.toNat, t.word config.toSettings x c = a := by
  rw [wordsOf, flatten_matrix, List.mem_map]
  constructor
  · rintro ⟨⟨x, c⟩, hmem, rfl⟩
    obtain ⟨hx, hc⟩ := mem_cells.1 hmem
    exact ⟨x, hx, c, hc, rfl⟩
  · rintro ⟨x, hx, c, hc, rfl⟩
    exact ⟨(x, c), mem_cells.2 ⟨hx, hc⟩, rfl⟩

theorem length_wordsOf (config : Config) (t : Trial) :
    ((wordsOf config t).length : Int) = config.width * config.channels := by
  have hwidth := config.regular.width_pos
  have hchannels := config.regular.channels_pos
  have hlength : (wordsOf config t).length = config.width.toNat * config.channels.toNat := by
    simp [wordsOf, matrix, List.length_flatten, Function.comp_def]
  rw [hlength, Nat.cast_mul, Int.toNat_of_nonneg (by omega), Int.toNat_of_nonneg (by omega)]

theorem abs_le_of_mem_wordsOf {a : Int} (ha : a ∈ wordsOf config t) : |a| ≤ 2 ^ 31 := by
  obtain ⟨x, -, c, -, rfl⟩ := mem_wordsOf.1 ha
  exact Trial.abs_word_le x c

/-- The words of a trial always have a quantization. -/
theorem exists_quantization (config : Config) (t : Trial) :
    ∃ q, Affine.ofAccumulators (wordsOf config t) = .ok q ∧ Affine.Sane q.scale ∧
      0 ≤ q.zeroPoint ∧ q.zeroPoint ≤ 255 := by
  have hwidth := config.regular.width_pos
  have hchannels := config.regular.channels_pos
  exact Affine.ofAccumulators_ok
    (List.ne_nil_of_mem (mem_wordsOf.2 ⟨0, by omega, 0, by omega, rfl⟩))
    fun a ↦ abs_le_of_mem_wordsOf

/-- The data pass the guards and the packer packs the weights. -/
structure Packs (bench : Bench σ) (config : Config) (t : Trial) (before : σ) (packed : Bytes)
    (after : σ) : Prop where
  input : ∀ v, ¬ Uniform (values t.buffers.input) v
  weights : ∀ v, ¬ Uniform (values t.weights) v
  run : (bench.pack config.channels config.kernelSize config.tile t.weights
    t.buffers.packed).run.run before = (.ok packed, after)

structure Convolves (bench : Bench σ) (config : Config) (t : Trial) (before : σ) (packed : Bytes)
    (after : σ) : Prop extends Packs bench config t before packed after where
  room : Convolution.Roomy config.toSettings

/-- The accumulators pass their guard too, and both parameter routines answer. -/
inductive Derives (bench : Bench σ) (config : Config) (t : Trial) (q : Affine) (before : σ) :
    Bytes → FixedPoint.Params → σ → Prop
  | intro {packed params other afterPack afterVector after}
      (hpack : Convolves bench config t before packed afterPack)
      (hrange : ∀ v, ¬ Uniform (wordsOf config t) v)
      (hvector : (bench.vectorParams q.requantizationScale q.zeroPoint config.qmin
        config.qmax).run.run afterPack = (.ok params, afterVector))
      (hscalar : (bench.scalarParams q.requantizationScale q.zeroPoint config.qmin
        config.qmax).run.run afterVector = (.ok other, after)) :
      Derives bench config t q before packed params after

/-- The kernel is called, with the packed weights and the parameters of the vector routine. -/
inductive Calls (bench : Bench σ) (config : Config) (t : Trial) (q : Affine) (before : σ) :
    Kernel.Outcome → σ → Prop
  | intro {packed params afterScalar outcome after}
      (hderive : Derives bench config t q before packed params afterScalar)
      (hrun : (bench.kernel.run (kernelCall config (repacked t packed) params)).run afterScalar =
        (outcome, after)) :
      Calls bench config t q before outcome after

theorem runKernel_run (bench : Bench σ) {params : FixedPoint.Params} {s : Session σ}
    {outcome : Kernel.Outcome} {after : σ}
    (h : (bench.kernel.run (kernelCall config t params)).run s.outside = (outcome, after)) :
    (runKernel bench config t params).run.run s =
      (match outcome.error? with
        | some e => .error e
        | none => .ok outcome.buffers, { s with outside := after }) := by
  have hcall : (call (liftM (bench.kernel.run (kernelCall config t params))) :
      Run σ Kernel.Outcome).run.run s = (.ok outcome, { s with outside := after }) :=
    run_call (congrArg (fun r : Kernel.Outcome × σ ↦ (Except.ok r.1, r.2)) h)
  refine (run_bind_ok hcall).trans ?_
  cases outcome.error? <;> rfl

def fromPacking (bench : Bench σ) (config : Config) (index seed : Int) (t : Trial) :
    Run σ Metrics := do
  let packed ← call (bench.pack config.channels config.kernelSize config.tile t.weights
    t.buffers.packed)
  let accumulators ← Convolution.accumulators config.toSettings (repacked t packed)
  let accumulators := accumulators.map (·.map (·.toInt))
  Contrast.checkRange accumulators.flatten (some index) (some seed)
  let params ← call (Parameters.derive bench.vectorParams bench.scalarParams accumulators.flatten
    config.qmin config.qmax)
  let left ← runKernel bench config (repacked t packed) params.requantization
  compare config index seed (paddingOf config t) params.output accumulators left.output

def fromRange (bench : Bench σ) (config : Config) (index seed : Int) (t : Trial)
    (packed : Bytes) : Run σ Metrics := do
  Contrast.checkRange (wordsOf config t) (some index) (some seed)
  let params ← call (Parameters.derive bench.vectorParams bench.scalarParams (wordsOf config t)
    config.qmin config.qmax)
  let left ← runKernel bench config (repacked t packed) params.requantization
  compare config index seed (paddingOf config t) params.output
    (matrix config.width.toNat config.channels.toNat (t.word config.toSettings)) left.output

section Runs

variable {s : Session σ} {index : Int} {e : Error} {v : Int} {packed : Bytes}
  {params : FixedPoint.Params} {outcome : Kernel.Outcome} {between after : σ}

theorem run_get (s : Session σ) : (get : Run σ (Session σ)).run.run s = (.ok s, s) := rfl

theorem examine_of_uniform_input (h : Uniform (values t.buffers.input) v) :
    (examine bench config index t).run.run s =
      (.error (Failure.raise ⟨.degenerate (.noContrast "input" (values t.buffers.input).length v),
        some index, some s.seed⟩), s) := by
  refine (run_bind_ok (run_get s)).trans ?_
  exact run_bind_error (run_liftM_error (Contrast.checkBuffer_of_uniform _ _ _ h) s)

theorem examine_of_uniform_weights (hinput : ∀ v, ¬ Uniform (values t.buffers.input) v)
    (h : Uniform (values t.weights) v) :
    (examine bench config index t).run.run s =
      (.error (Failure.raise ⟨.degenerate (.noContrast "kernel" (values t.weights).length v),
        some index, some s.seed⟩), s) := by
  refine (run_bind_ok (run_get s)).trans ?_
  refine (run_bind_ok (run_liftM_ok (Contrast.checkBuffer_ok _ _ _ hinput) s)).trans ?_
  exact run_bind_error (run_liftM_error (Contrast.checkBuffer_of_uniform _ _ _ h) s)

section Fitting

variable (hheight : 1 ≤ config.kernelHeight) (hwidth : 1 ≤ config.kernelWidth)
  (ht : t.Fits config.toSettings)

include ht in
theorem examine_of_contrast (hinput : ∀ v, ¬ Uniform (values t.buffers.input) v)
    (hweights : ∀ v, ¬ Uniform (values t.weights) v) :
    (examine bench config index t).run.run s =
      (fromPacking bench config index s.seed t).run.run s := by
  have hpadding := Output.padding_ok config.regular ht.output_size
  refine (run_bind_ok (run_get s)).trans ?_
  refine (run_bind_ok (run_liftM_ok (Contrast.checkBuffer_ok _ _ _ hinput) s)).trans ?_
  refine (run_bind_ok (run_liftM_ok (Contrast.checkBuffer_ok _ _ _ hweights) s)).trans ?_
  exact run_bind_ok (run_liftM_ok hpadding s)

include ht in
theorem examine_of_pack_error (hinput : ∀ v, ¬ Uniform (values t.buffers.input) v)
    (hweights : ∀ v, ¬ Uniform (values t.weights) v)
    (hrun : (bench.pack config.channels config.kernelSize config.tile t.weights
      t.buffers.packed).run.run s.outside = (.error e, after)) :
    (examine bench config index t).run.run s = (.error e, { s with outside := after }) := by
  rw [examine_of_contrast ht hinput hweights]
  exact run_bind_error (run_call hrun)

include hheight hwidth ht

theorem examine_of_lack (h : Packs bench config t s.outside packed after)
    (hroom : ¬ Convolution.Roomy config.toSettings) :
    (examine bench config index t).run.run s =
      (.error (.fault (Convolution.lack config.toSettings)), { s with outside := after }) := by
  have hconvolution : Convolution.accumulators config.toSettings (repacked t packed) = .error _ :=
    Convolution.accumulators_lack config.regular hheight hwidth (fits_repacked ht packed) hroom
  rw [examine_of_contrast ht h.input h.weights]
  refine (run_bind_ok (run_call h.run)).trans ?_
  exact run_bind_error (run_liftM_error hconvolution _)

theorem examine_of_convolves (h : Convolves bench config t s.outside packed after) :
    (examine bench config index t).run.run s =
      (fromRange bench config index s.seed t packed).run.run { s with outside := after } := by
  obtain ⟨accs, haccs, hwords⟩ :=
    Convolution.accumulators_words config.regular hheight hwidth ht h.room
  have hconvolution : Convolution.accumulators config.toSettings (repacked t packed) = .ok accs :=
    haccs
  rw [examine_of_contrast ht h.input h.weights]
  refine (run_bind_ok (run_call h.run)).trans ?_
  refine (run_bind_ok (run_liftM_ok hconvolution _)).trans ?_
  rw [hwords]
  rfl

theorem examine_of_uniform_words (hpack : Convolves bench config t s.outside packed after)
    (h : Uniform (wordsOf config t) v) :
    (examine bench config index t).run.run s =
      (.error (Failure.raise ⟨.degenerate (.zeroRange v), some index, some s.seed⟩),
        { s with outside := after }) := by
  rw [examine_of_convolves hheight hwidth ht hpack]
  exact run_bind_error (run_liftM_error (Contrast.checkRange_of_uniform _ _ h) _)

theorem examine_of_params_error (hpack : Convolves bench config t s.outside packed between)
    (hrange : ∀ v, ¬ Uniform (wordsOf config t) v)
    (hrun : (Parameters.derive bench.vectorParams bench.scalarParams (wordsOf config t) config.qmin
      config.qmax).run.run between = (.error e, after)) :
    (examine bench config index t).run.run s = (.error e, { s with outside := after }) := by
  rw [examine_of_convolves hheight hwidth ht hpack]
  refine (run_bind_ok (run_liftM_ok (Contrast.checkRange_ok _ _ hrange) _)).trans ?_
  exact run_bind_error (run_call hrun)

variable (hq : Affine.ofAccumulators (wordsOf config t) = .ok q)

include hq

/-- Up to the call of the kernel a trial only changes the state of the collaborators. -/
theorem examine_of_derives (h : Derives bench config t q s.outside packed params after) :
    (examine bench config index t).run.run s =
      (do
        let left ← runKernel bench config (repacked t packed) params
        compare config index s.seed (paddingOf config t) q
          (matrix config.width.toNat config.channels.toNat (t.word config.toSettings))
          left.output : Run σ Metrics).run.run { s with outside := after } := by
  obtain ⟨hpack, hrange, hvector, hscalar⟩ := h
  have hcheck := Contrast.checkRange_ok (some index) (some s.seed) hrange
  have hparams := Parameters.derive_ok hq hvector hscalar
  rw [examine_of_convolves hheight hwidth ht hpack]
  refine (run_bind_ok (run_liftM_ok hcheck _)).trans ?_
  refine (run_bind_ok (run_call hparams)).trans ?_
  dsimp only

theorem examine_of_kernel_error (h : Calls bench config t q s.outside outcome after)
    (herror : outcome.error? = some e) :
    (examine bench config index t).run.run s = (.error e, { s with outside := after }) := by
  obtain ⟨hderive, hrun⟩ := h
  have hkernel := runKernel_run bench (s := { s with outside := _ }) hrun
  rw [herror] at hkernel
  rw [examine_of_derives hheight hwidth ht hq hderive]
  exact run_bind_error hkernel

/-- A kernel that finishes is judged by the output that it leaves. -/
theorem examine_of_calls (h : Calls bench config t q s.outside outcome after)
    (herror : outcome.error? = none) :
    (examine bench config index t).run.run s =
      (compare config index s.seed (paddingOf config t) q
        (matrix config.width.toNat config.channels.toNat (t.word config.toSettings))
        outcome.buffers.output : Run σ Metrics).run.run { s with outside := after } := by
  obtain ⟨hderive, hrun⟩ := h
  have hkernel := runKernel_run bench (s := { s with outside := _ }) hrun
  rw [herror] at hkernel
  rw [examine_of_derives hheight hwidth ht hq hderive]
  exact run_bind_ok hkernel

end Fitting

end Runs

section Laid

theorem packed_room (ht : t.Laid config.toSettings) :
    Weights.tileCount config.tile config.channels * config.tile * config.kernelSize ≤
      t.buffers.packed.size := by
  rw [ht.packed_size, config.regular.packedChannels_eq, mul_comm config.kernelSize]

variable (hheight : 1 ≤ config.kernelHeight) (hwidth : 1 ≤ config.kernelWidth)
  (ht : t.Laid config.toSettings)

include hheight hwidth ht

/-- The library's own collaborators bring every trial that passes the guards to its kernel. -/
theorem exists_derives (hroom : Convolution.Roomy config.toSettings)
    (hinput : ∀ v, ¬ Uniform (values t.buffers.input) v)
    (hweights : ∀ v, ¬ Uniform (values t.weights) v)
    (hrange : ∀ v, ¬ Uniform (wordsOf config t) v) (hsane : Affine.Sane q.scale)
    (hzero : 0 ≤ q.zeroPoint ∧ q.zeroPoint ≤ 255) (kernel : Kernel σ) (before : σ) :
    ∃ packed params, (kernelCall config (repacked t packed) params).Fits config.kernelSize
        config.tile ∧
      Derives (Bench.ofKernel kernel) config t q before packed params before := by
  have hs := config.regular
  have hfits := ht.fits hs hheight hwidth
  have hbounds := And.intro hs.qmin_nonneg (And.intro hs.qmin_le_qmax hs.qmax_le)
  obtain ⟨packed, hpack, hsize, -⟩ := pack_ok hheight hwidth hfits hs.tile_pos (packed_room ht)
  obtain ⟨p, hp, -⟩ := Affine.derive_meets .vector hsane hzero hbounds
  obtain ⟨p', hp', -⟩ := Affine.derive_meets .scalar hsane hzero hbounds
  refine ⟨packed, p, ?_, .intro ⟨⟨hinput, hweights, run_liftM_ok hpack before⟩, hroom⟩ hrange
    (FixedPoint.Path.routine_run hp before) (FixedPoint.Path.routine_run hp' before)⟩
  exact kernelCall_fits hheight hwidth (fits_repacked hfits packed) hs.tile_pos
    ((packed_room ht).trans (by exact_mod_cast hsize.ge))

end Laid

end Session

end Depthwise
