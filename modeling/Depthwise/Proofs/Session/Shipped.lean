import Depthwise.Proofs.Kernel.Sizes
import Depthwise.Proofs.Session.Endings
import Depthwise.Proofs.Trial.Draws

namespace Depthwise

/-- Every place that a trial reads or writes lies inside its buffer: the entries of the table and
their rows, the weights before and after packing, the biases and the codes. -/
structure Trial.Inside (s : Settings) (t : Trial) : Prop where
  entry : ∀ x < s.width.toNat, ∀ k < s.kernelSize.toNat,
    0 ≤ x * s.tapStep + k ∧ x * s.tapStep + k < t.table.size
  row : ∀ view ∈ t.table, Settings.guardSize ≤ view.start ∧ view.stop ≤ t.buffers.input.size ∧
    ∀ c < s.channels.toNat, view.start + c < view.stop
  weight : ∀ c < s.channels.toNat, ∀ k < s.kernelSize.toNat,
    c * s.kernelSize.toNat + k < t.weights.size
  packed : ∀ c < s.channels.toNat, ∀ k < s.kernelSize.toNat,
    0 ≤ Weights.place s.kernelSize s.tile c k ∧
      Weights.place s.kernelSize s.tile c k < t.buffers.packed.size
  bias : ∀ c < s.channels.toNat, c < t.buffers.bias.size
  code : ∀ x < s.width.toNat, ∀ c < s.channels.toNat,
    0 ≤ Output.rowStart s x + c ∧ Output.rowStart s x + c < t.buffers.output.size

namespace Trial.Laid

variable {s : Settings} {t : Trial} (hs : s.Regular) (hheight : 1 ≤ s.kernelHeight)
  (hwidth : 1 ≤ s.kernelWidth) (ht : t.Laid s)

include hs hheight hwidth ht

theorem weight_lt {c k : Nat} (hc : c < s.channels.toNat) (hk : k < s.kernelSize.toNat) :
    c * s.kernelSize.toNat + k < t.weights.size := by
  have hkernelSize := Settings.kernelSize_pos hheight hwidth
  have hchannels := hs.channels_pos
  have hrow := Nat.mul_le_mul_right s.kernelSize.toNat (show c + 1 ≤ s.channels.toNat from hc)
  have hsize : t.weights.size = s.channels.toNat * s.kernelSize.toNat := by
    rw [← Int.toNat_mul (by omega) (by omega), ← ht.weights_size, Int.toNat_natCast]
  rw [Nat.succ_mul] at hrow
  omega

theorem place_bounds {c k : Nat} (hc : c < s.channels.toNat) (hk : k < s.kernelSize.toNat) :
    0 ≤ Weights.place s.kernelSize s.tile c k ∧
      Weights.place s.kernelSize s.tile c k < t.buffers.packed.size := by
  have hkernelSize := Settings.kernelSize_pos hheight hwidth
  have hchannels := hs.channels_pos
  have htile := hs.tile_pos
  obtain ⟨kernelSize, hcount⟩ := Int.eq_ofNat_of_zero_le (zero_le_one.trans hkernelSize)
  obtain ⟨channels, hlanes⟩ := Int.eq_ofNat_of_zero_le (zero_le_one.trans hchannels)
  obtain ⟨tile, htiles⟩ := Int.eq_ofNat_of_zero_le (zero_le_one.trans htile)
  have hpacked : (t.buffers.packed.size : Int) =
      ((Weights.tiles tile channels * kernelSize * tile : Nat) : Int) := by
    rw [ht.packed_size, hs.packedChannels_eq, hlanes, hcount, htiles,
      Weights.tileCount_natCast (by omega)]
    push_cast
    ring
  rw [hlanes, Int.toNat_natCast] at hc
  rw [hcount, Int.toNat_natCast] at hk
  rw [hpacked, hcount, htiles, Weights.place_natCast]
  exact ⟨Int.natCast_nonneg _, by exact_mod_cast Weights.slot_lt (by omega) hc hk⟩

theorem inside : t.Inside s := by
  have hchannels := hs.channels_pos
  have hstep := hs.tapStep_pos hheight
  have hstride := hs.channels_le_outputStride
  refine ⟨fun x hx k hk ↦ ?_, fun view hview ↦ ?_, fun c hc k hk ↦ ht.weight_lt hs hheight hwidth
    hc hk, fun c hc k hk ↦ ht.place_bounds hs hheight hwidth hc hk, fun c hc ↦ ?_,
    fun x hx c hc ↦ ?_⟩
  · have hlast := hs.tap_lt_tableSize hheight hx
    have hfirst : 0 ≤ (x : Int) * s.tapStep := mul_nonneg (by omega) (by omega)
    rw [ht.table_size hs hheight hwidth]
    omega
  · obtain ⟨hguard, hroom, hstop⟩ := rowView_bounds hs hheight hwidth ht (ht.mem_rowViews hview)
    exact ⟨hguard, hstop.le, fun c hc ↦ by omega⟩
  · have hsize := ht.bias_size
    have hpacked := hs.channels_le_packedChannels
    omega
  · have hfirst : 0 ≤ (x : Int) * s.effectiveOutputStride := mul_nonneg (by omega) (by omega)
    have hlast : (x : Int) * s.effectiveOutputStride ≤ (s.width - 1) * s.effectiveOutputStride :=
      mul_le_mul_of_nonneg_right (by omega) (by omega)
    rw [ht.output_size, Output.rowStart, Settings.outputSize]
    omega

end Trial.Laid

/-- A kernel of the library fills the rows and does nothing else, also where accumulators leave
their words. -/
theorem Kernel.Family.exists_run_eq {call : Kernel.Call} {kernelSize tile : Int}
    (h : call.Fits kernelSize tile) (hp : call.params.Sound)
    (hinput : FitsLane call.inputZeroPoint) (hkernel : FitsLane call.kernelZeroPoint)
    (family : Family) : ∃ code, family.run kernelSize tile call = call.filled code := by
  obtain ⟨kernelSize, tile, rfl, rfl⟩ := h.exists_natCast
  cases family with
  | scalar => exact ⟨_, Scalar.run_eq hp h⟩
  | vectorized => exact ⟨_, Vector.run_eq h hp hinput hkernel⟩

theorem Kernel.Family.keepsSize (family : Family) (σ : Type) (kernelSize tile : Int) :
    (family.kernel σ kernelSize tile).KeepsSize :=
  fun call _ ↦ family.size_run kernelSize tile call

namespace Session

open Kernel (Family)

variable {σ : Type} {config : Config} {t : Trial} {q : Affine}

/-- The ends of a trial that say something about the data or about the codes, and the two limits on
what can be computed and written. -/
inductive Conclusive (config : Config) (index seed : Int) : Except Error Metrics → Prop
  | returned (m : Metrics) : Conclusive config index seed (.ok m)
  | degenerate (data : Degeneracy) :
      Conclusive config index seed (.error (.failure ⟨.degenerate data, some index, some seed⟩))
  | exceeded {x c : Nat} (hx : x < config.width.toNat) (hc : c < config.channels.toNat)
      (e : Double) (o : Int) : Conclusive config index seed
        (.error (.failure ⟨.toleranceExceeded x c e o Affine.tolerance, some index, some seed⟩))
  | crowded (h : ¬ Convolution.Roomy config.toSettings) : Conclusive config index seed
      (.error (.fault (Convolution.lack config.toSettings)))
  | illegible (h : ¬ Legible config.toSettings index seed) :
      Conclusive config index seed (.error (.fault .unusableValue))

section Raised

variable {index seed : Int}

theorem Conclusive.raise_exceeded (hdescribe : config.Describable) {x c : Nat}
    (hx : x < config.width.toNat) (hc : c < config.channels.toNat) (e : Double) {o : Int}
    (ho : |o| ≤ 255) : Conclusive config index seed (.error (Failure.mk
      (.toleranceExceeded x c e o Affine.tolerance) (some index) (some seed)).raise) := by
  rw [Session.raise_exceeded hdescribe hx hc e ho]
  split_ifs with h
  · exact .exceeded hx hc e o
  · exact .illegible h

theorem Conclusive.raise_degenerate {data : Degeneracy} (hdata : ∀ p ∈ data.wording, p.Short) :
    Conclusive config index seed
      (.error (Failure.mk (.degenerate data) (some index) (some seed)).raise) := by
  by_cases h : Text.Short index ∧ Text.Short seed
  · have hcause : ∀ p ∈ (Failure.Cause.degenerate data).wording, p.Short := hdata
    rw [Failure.raise_of_short hcause h.1 h.2]
    exact .degenerate data
  · rw [Failure.raise_of_long h]
    exact .illegible fun hlegible ↦ h ⟨hlegible.index, hlegible.seed⟩

theorem short_noContrast {bytes : Bytes} {v : Int} (h : Contrast.Uniform (values bytes) v)
    (name : String) :
    ∀ p ∈ (Degeneracy.noContrast name (values bytes).length v).wording, p.Short := by
  obtain ⟨hlength, hall⟩ := h
  obtain ⟨a, ha⟩ := List.exists_mem_of_length_pos (by omega : 0 < (values bytes).length)
  obtain ⟨b, -, hb⟩ := List.mem_map.1 ha
  have hbyte := b.toNat_lt
  have hshort : Text.Short v := by
    refine Text.short_of_natAbs_lt 3 ?_ (by decide)
    have := hall a ha
    omega
  simp [Degeneracy.wording, hshort]

theorem short_zeroRange {v : Int} (h : Contrast.Uniform (wordsOf config t) v) :
    ∀ p ∈ (Degeneracy.zeroRange v).wording, p.Short := by
  obtain ⟨hlength, hall⟩ := h
  obtain ⟨a, ha⟩ := List.exists_mem_of_length_pos (by omega : 0 < (wordsOf config t).length)
  have hshort : Text.Short v := by
    refine Text.short_of_natAbs_lt 10 ?_ (by decide)
    have := hall a ha
    have := abs_le.1 (abs_le_of_mem_wordsOf ha)
    omega
  simp [Degeneracy.wording, hshort]

end Raised

/-- Collaborators that never fail on a trial, with a kernel that leaves the padding alone. -/
structure Faultless (bench : Bench σ) (config : Config) (t : Trial) (q : Affine) : Prop where
  pack : ∀ before, ∃ packed, (bench.pack config.channels config.kernelSize config.tile t.weights
    t.buffers.packed).run.run before = (.ok packed, before)
  vectorParams : ∀ before, ∃ params, (bench.vectorParams q.requantizationScale q.zeroPoint
    config.qmin config.qmax).run.run before = (.ok params, before)
  scalarParams : ∀ before, ∃ params, (bench.scalarParams q.requantizationScale q.zeroPoint
    config.qmin config.qmax).run.run before = (.ok params, before)
  kernel : ∀ before outcome after, Calls bench config t q before outcome after →
    outcome.error? = none ∧ ∀ place, Output.IsPadding config.toSettings place →
      Kept t outcome.buffers.output place

theorem Ends.conclusive {bench : Bench σ} (h : Faultless bench config t q)
    (hzero : 0 ≤ q.zeroPoint ∧ q.zeroPoint ≤ 255) {index seed : Int}
    {before after : σ} {r : Except Error Metrics}
    (hend : Ends bench config t q index seed before r after) : Conclusive config index seed r := by
  cases hend with
  | input h => exact .raise_degenerate (short_noContrast h _)
  | weights _ h => exact .raise_degenerate (short_noContrast h _)
  | packer _ _ hrun =>
    obtain ⟨packed, hpack⟩ := h.pack before
    rw [hpack] at hrun
    cases hrun
  | lack _ hroom => exact .crowded hroom
  | words _ h => exact .raise_degenerate (short_zeroRange h)
  | @vectorParams _ between _ _ _ _ hrun =>
    obtain ⟨params, hparams⟩ := h.vectorParams between
    rw [hparams] at hrun
    cases hrun
  | @scalarParams _ _ _ between _ _ _ _ _ hrun =>
    obtain ⟨params, hparams⟩ := h.scalarParams between
    rw [hparams] at hrun
    cases hrun
  | kernel hcall herror =>
    rw [(h.kernel _ _ _ hcall).1] at herror
    cases herror
  | undescribed _ _ hdescribe => exact .illegible fun h ↦ hdescribe h.describable
  | tolerance _ _ hdescribe hx hc _ _ =>
    exact .raise_exceeded hdescribe hx hc _ (abs_observedAt_le hzero _ _ _)
  | corruption hcall _ _ _ hplace hchanged _ =>
    exact absurd ((h.kernel _ _ _ hcall).2 _ hplace) hchanged
  | passes _ _ _ _ _ _ => exact .returned _

section Shipped

variable (hheight : 1 ≤ config.kernelHeight) (hwidth : 1 ≤ config.kernelWidth)
  (ht : t.Laid config.toSettings)

include hheight hwidth ht

theorem kernelCall_fits_of_pack {packed : Bytes} (hsize : packed.size = t.buffers.packed.size)
    (params : FixedPoint.Params) :
    (kernelCall config (repacked t packed) params).Fits config.kernelSize config.tile :=
  kernelCall_fits hheight hwidth (fits_repacked (ht.fits config.regular hheight hwidth) packed)
    config.regular.tile_pos ((packed_room ht).trans (by exact_mod_cast hsize.ge))

/-- What the collaborators of the library make of a trial: the packed weights, both parameter sets,
and the rows that a kernel fills. -/
theorem exists_shipped_run (hsane : Affine.Sane q.scale)
    (hzero : 0 ≤ q.zeroPoint ∧ q.zeroPoint ≤ 255) (family : Family) :
    ∃ packed vector scalar code,
      Weights.pack config.channels config.kernelSize config.tile t.weights t.buffers.packed =
        .ok packed ∧ packed.size = t.buffers.packed.size ∧
      FixedPoint.derive .vector q.requantizationScale q.zeroPoint config.qmin config.qmax =
        .ok vector ∧
      FixedPoint.derive .scalar q.requantizationScale q.zeroPoint config.qmin config.qmax =
        .ok scalar ∧
      family.run config.kernelSize config.tile (kernelCall config (repacked t packed) vector) =
        (kernelCall config (repacked t packed) vector).filled code := by
  have hs := config.regular
  have hbounds := And.intro hs.qmin_nonneg (And.intro hs.qmin_le_qmax hs.qmax_le)
  obtain ⟨packed, hpack, hsize, -⟩ := pack_ok hheight hwidth (ht.fits hs hheight hwidth)
    hs.tile_pos (packed_room ht)
  obtain ⟨vector, hvector, hmeets⟩ := Affine.derive_meets .vector hsane hzero hbounds
  obtain ⟨scalar, hscalar, -⟩ := Affine.derive_meets .scalar hsane hzero hbounds
  have hpoint : Kernel.FitsLane 127 := by decide
  obtain ⟨code, hcode⟩ := Family.exists_run_eq
    (kernelCall_fits_of_pack hheight hwidth ht hsize vector) hmeets.sound hpoint hpoint family
  exact ⟨packed, vector, scalar, code, hpack, hsize, hvector, hscalar, hcode⟩

theorem faultless_shipped (hsane : Affine.Sane q.scale)
    (hzero : 0 ≤ q.zeroPoint ∧ q.zeroPoint ≤ 255) (family : Family) (script : Script) :
    Faultless { Bench.ofKernel (family.kernel σ config.kernelSize config.tile) with script } config
      t q := by
  obtain ⟨packed, vector, scalar, code, hpack, hsize, hvector, hscalar, hcode⟩ :=
    exists_shipped_run hheight hwidth ht hsane hzero family
  refine ⟨fun before ↦ ⟨packed, run_liftM_ok hpack before⟩,
    fun before ↦ ⟨vector, FixedPoint.Path.routine_run hvector before⟩,
    fun before ↦ ⟨scalar, FixedPoint.Path.routine_run hscalar before⟩,
    fun before outcome after hcall ↦ ?_⟩
  obtain ⟨hderive, hrun⟩ := hcall
  obtain ⟨hpacks, -, hparams, -⟩ := hderive
  cases (run_liftM_ok hpack before).symm.trans hpacks.run
  cases (FixedPoint.Path.routine_run hvector before).symm.trans hparams
  cases (congrArg (·, _) hcode.symm).trans hrun
  exact ⟨rfl, fun place hplace ↦
    kept_filled (kernelCall_fits_of_pack hheight hwidth ht hsize vector) code hplace⟩

/-- What the steps before the verdict come to on a trial: accumulators where the samples have room,
packed weights, both parameter sets, and a call that steps as the settings say, finishes and keeps
the padding. -/
structure Proceeds (family : Family) (config : Config) (t : Trial) : Prop where
  accumulators : Convolution.Roomy config.toSettings →
    ∃ accs, Convolution.accumulators config.toSettings t = .ok accs
  call : ∃ packed q vector scalar,
    Weights.pack config.channels config.kernelSize config.tile t.weights t.buffers.packed =
      .ok packed ∧ packed.size = t.buffers.packed.size ∧
    Affine.ofAccumulators (wordsOf config t) = .ok q ∧
    FixedPoint.derive .vector q.requantizationScale q.zeroPoint config.qmin config.qmax =
      .ok vector ∧
    FixedPoint.derive .scalar q.requantizationScale q.zeroPoint config.qmin config.qmax =
      .ok scalar ∧
    (∀ x : Nat, x * (kernelCall config (repacked t packed) vector).inputIncrement.fdiv
        Settings.entrySize = x * config.tapStep ∧
      (kernelCall config (repacked t packed) vector).rowStart x =
        Output.rowStart config.toSettings x) ∧
    (family.run config.kernelSize config.tile
      (kernelCall config (repacked t packed) vector)).error? = none ∧
    ∀ place, Output.IsPadding config.toSettings place →
      Kept t (family.run config.kernelSize config.tile
        (kernelCall config (repacked t packed) vector)).buffers.output place

omit hheight hwidth ht in
theorem kernelCall_steps (config : Config) (t : Trial) (params : FixedPoint.Params) (x : Nat) :
    x * (kernelCall config t params).inputIncrement.fdiv Settings.entrySize = x * config.tapStep ∧
      (kernelCall config t params).rowStart x = Output.rowStart config.toSettings x := by
  constructor
  · rw [kernelCall, Settings.inputIncrement, Int.mul_fdiv_cancel _ (by decide)]
  · rw [Kernel.Call.rowStart, Output.rowStart, kernelCall, Settings.outputIncrement,
      add_sub_cancel]

theorem proceeds (family : Family) : Proceeds family config t := by
  obtain ⟨q, hq, hsane, hzero⟩ := exists_quantization config t
  have hfits := ht.fits config.regular hheight hwidth
  obtain ⟨packed, vector, scalar, code, hpack, hsize, hvector, hscalar, hcode⟩ :=
    exists_shipped_run hheight hwidth ht hsane hzero family
  refine ⟨fun hroom ↦ ⟨_, Convolution.accumulators_ok config.regular hheight hwidth hfits hroom⟩,
    packed, q, vector, scalar, hpack, hsize, hq, hvector, hscalar,
    kernelCall_steps config _ vector, ?_⟩
  rw [hcode]
  exact ⟨rfl, fun place hplace ↦
    kept_filled (kernelCall_fits_of_pack hheight hwidth ht hsize vector) code hplace⟩

omit ht in
/-- With collaborators that never fail every trial is conclusive, also as a drawn one. -/
theorem Faultless.conclusive {bench : Bench σ} (h : Faultless bench config t q)
    (hfits : t.Fits config.toSettings) (hkernel : bench.kernel.KeepsSize)
    (hq : Affine.ofAccumulators (wordsOf config t) = .ok q) (hsane : Affine.Sane q.scale)
    (hzero : 0 ≤ q.zeroPoint ∧ q.zeroPoint ≤ 255) (index : Int) (s : Session σ) :
    Conclusive config index s.seed ((examine bench config index t).run.run s).1 ∧
      ∀ s', (draw (Trial.draw config.toSettings bench.script)).run.run s' = (.ok t, s) →
        Conclusive config index s'.seed ((runTrial bench config index).run.run s').1 := by
  have hexamine : Conclusive config index s.seed ((examine bench config index t).run.run s).1 := by
    obtain ⟨r, after, hends⟩ := exists_ends hsane hzero bench config t index s.seed s.outside
    obtain ⟨history, hrun⟩ := hends.run hheight hwidth hfits hkernel hq hsane hzero
    rw [hrun]
    exact hends.conclusive h hzero
  refine ⟨hexamine, fun s' hdraw ↦ ?_⟩
  have hseed : s'.seed = s.seed := congrArg (fun r ↦ r.2.seed) hdraw
  rw [runTrial_of_draw hdraw, hseed]
  exact hexamine

theorem conclusive_shipped (family : Family) (script : Script) (index : Int) (s : Session σ) :
    Conclusive config index s.seed ((examine
      { Bench.ofKernel (family.kernel σ config.kernelSize config.tile) with script } config
      index t).run.run s).1 ∧
    ∀ s', (draw (Trial.draw config.toSettings script)).run.run s' = (.ok t, s) →
      Conclusive config index s'.seed ((runTrial
        { Bench.ofKernel (family.kernel σ config.kernelSize config.tile) with script } config
        index).run.run s').1 := by
  obtain ⟨q, hq, hsane, hzero⟩ := exists_quantization config t
  exact (faultless_shipped hheight hwidth ht hsane hzero family script).conclusive hheight hwidth
    (ht.fits config.regular hheight hwidth) (family.keepsSize σ config.kernelSize config.tile) hq
    hsane hzero index s

/-- A trial with a kernel of the library and its collaborators stays inside its buffers, nothing in
it fails, and it ends with its metrics, with data that it refuses, or with a code past the
tolerance, unless its samples have no room or its verdict cannot be written. -/
theorem examine_conclusive (family : Family) :
    t.Inside config.toSettings ∧ Proceeds family config t ∧
      ∀ (script : Script) (index : Int) (s : Session σ),
        Conclusive config index s.seed ((examine
          { Bench.ofKernel (family.kernel σ config.kernelSize config.tile) with script } config
          index t).run.run s).1 ∧
        ∀ s', (draw (Trial.draw config.toSettings script)).run.run s' = (.ok t, s) →
          Conclusive config index s'.seed ((runTrial
            { Bench.ofKernel (family.kernel σ config.kernelSize config.tile) with script } config
            index).run.run s').1 :=
  ⟨ht.inside config.regular hheight hwidth, proceeds hheight hwidth ht family,
    fun script index s ↦ conclusive_shipped hheight hwidth ht family script index s⟩

omit ht in
/-- A trial that a session draws for a kernel of the library, its rows in any order. It is refused
when one of its buffers cannot exist, and conclusive otherwise. -/
theorem runTrial_conclusive (family : Family) (order? : Option RowOrder) (index : Int)
    (s : Session σ) : ∃ r s',
      (runTrial { Bench.ofKernel (family.kernel σ config.kernelSize config.tile) with
        script := { order? } } config index).run.run s = (r, s') ∧
      (Trial.Allocatable config.toSettings → Conclusive config index s.seed r) ∧
      (¬ Trial.Allocatable config.toSettings → r = .error (.fault .unusableValue)) := by
  have hsized := Trial.sized_draw config.toSettings order?
  by_cases hallocatable : Trial.Allocatable config.toSettings
  · obtain ⟨t, stream, hdraw, ht⟩ := hsized.1 hallocatable s.stream
    have hconclusive := conclusive_shipped hheight hwidth ht.laid family { order? } index
      { s with stream }
    exact ⟨_, _, rfl, fun _ ↦ hconclusive.2 s (run_draw hdraw), fun h ↦ (h hallocatable).elim⟩
  · obtain ⟨stream, hdraw⟩ := hsized.2 hallocatable s.stream
    exact ⟨_, _, run_bind_error (run_draw hdraw), fun h ↦ (hallocatable h).elim, fun _ ↦ rfl⟩

end Shipped

def reversedTrial : Trial where
  buffers := { wrappingTrial.buffers with packed := .replicate 8 127 }
  weights := wrappingTrial.weights
  table := #[⟨17, 20⟩, ⟨14, 20⟩, ⟨11, 20⟩, ⟨8, 20⟩]

def reversedScript : Script where
  input? := some fun _ ↦ .ok reversedTrial.buffers.input
  weights? := some fun _ ↦ .ok reversedTrial.weights
  bias? := some fun _ ↦ .ok reversedTrial.buffers.bias
  output? := some fun _ ↦ .ok reversedTrial.buffers.output
  order? := some .reverse

def reversedSession : Session Unit where
  seed := 9
  stream := .ofSeed 9
  outside := ()

theorem reversedTrial_laid : reversedTrial.Laid tallConfig.toSettings where
  input_size := rfl
  weights_size := rfl
  packed_size := rfl
  bias_size := rfl
  output_size := rfl
  table_perm := by
    rw [Trial.rowViews_eq]
    decide

theorem draw_reversedScript :
    (draw (Trial.draw tallConfig.toSettings reversedScript)).run.run reversedSession =
      (.ok reversedTrial, reversedSession) := by
  have htrial : ((Trial.draw tallConfig.toSettings reversedScript).run.run
      reversedSession.stream).1 = .ok reversedTrial := by decide +kernel
  exact congrArg (·, reversedSession) htrial

theorem examine_conclusive_reversed : reversedTrial.Inside tallConfig.toSettings ∧
    Conclusive tallConfig 0 9 ((runTrial
      { Bench.ofKernel (Family.vectorized.kernel Unit tallConfig.kernelSize tallConfig.tile) with
        script := reversedScript } tallConfig 0).run.run reversedSession).1 := by
  obtain ⟨hinside, -, hconclusive⟩ := examine_conclusive (by decide) (by decide)
    reversedTrial_laid .vectorized
  exact ⟨hinside, (hconclusive reversedScript 0 reversedSession).2 _ draw_reversedScript⟩

/-- Trials of the library's own that end with an unusable value: one has no room for its samples,
and one cannot be described. -/
theorem examine_shipped_unusable :
    (steppedTrial immenseConfig.toSettings).Laid immenseConfig.toSettings ∧
    wordyTrial.Laid wordyConfig.toSettings ∧
    ∀ family : Family,
      ((examine (Bench.ofKernel (family.kernel Unit immenseConfig.kernelSize immenseConfig.tile))
        immenseConfig 0 (steppedTrial immenseConfig.toSettings)).run.run reversedSession).1 =
          .error (.fault .unusableValue) ∧
      ((examine (Bench.ofKernel (family.kernel Unit wordyConfig.kernelSize wordyConfig.tile))
        wordyConfig 0 wordyTrial).run.run reversedSession).1 = .error (.fault .unusableValue) := by
  have hlaid := steppedTrial_laid immenseConfig (by decide) (by decide)
  refine ⟨hlaid, wordyTrial_drawn.laid, fun family ↦ ⟨?_, ?_⟩⟩
  · obtain ⟨packed, hpack, -⟩ := pack_ok (by decide) (by decide)
      (hlaid.fits immenseConfig.regular (by decide) (by decide)) immenseConfig.regular.tile_pos
      (packed_room hlaid)
    exact congrArg (·.1) (examine_steppedTrial (Bench.ofKernel (family.kernel Unit _ _))
      immenseConfig 0 reversedSession (by decide) (by decide) (by decide)
      (run_liftM_ok hpack reversedSession.outside))
  · cases family <;> decide +kernel

end Session

end Depthwise
