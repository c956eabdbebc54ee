import Depthwise.Proofs.Session.Stages

namespace Depthwise.Session

open Contrast (Uniform)

variable {σ : Type} {bench : Bench σ} {config : Config} {t : Trial} {q : Affine}

def Within (config : Config) (t : Trial) (q : Affine) (written : Bytes) (x c : Nat) : Prop :=
  |(q.expected config.qmin config.qmax (t.word config.toSettings x c)).toRat -
    observedAt config q written x c| ≤ 3 / 5

def AllWithin (config : Config) (t : Trial) (q : Affine) (written : Bytes) : Prop :=
  ∀ x < config.width.toNat, ∀ c < config.channels.toNat, Within config t q written x c

/-- A byte of the output is what it was before the trial. -/
def Kept (t : Trial) (written : Bytes) (place : Nat) : Prop :=
  written.getD place 0 = t.buffers.output.getD place 0

instance (t : Trial) (written : Bytes) (place : Nat) : Decidable (Kept t written place) :=
  inferInstanceAs (Decidable (_ = _))

def Measures (config : Config) (t : Trial) (q : Affine) (written : Bytes) (m : Metrics) : Prop :=
  Metrics.compute
    (matrix config.width.toNat config.channels.toNat fun x c ↦
      q.expected config.qmin config.qmax (t.word config.toSettings x c))
    (matrix config.width.toNat config.channels.toNat (observedAt config q written))
    Affine.tolerance q.scale q.zeroPoint = .ok m

/-- The end of a trial, with the state that it leaves its collaborators in. A failure is raised with
its text, and where that cannot be written it is an unusable value instead. -/
inductive Ends (bench : Bench σ) (config : Config) (t : Trial) (q : Affine) (index seed : Int)
    (before : σ) : Except Error Metrics → σ → Prop
  | input {v} (h : Uniform (values t.buffers.input) v) :
      Ends bench config t q index seed before
        (.error (Failure.raise ⟨.degenerate (.noContrast "input" (values t.buffers.input).length v),
          some index, some seed⟩)) before
  | weights {v} (hinput : ∀ v, ¬ Uniform (values t.buffers.input) v)
      (h : Uniform (values t.weights) v) :
      Ends bench config t q index seed before
        (.error (Failure.raise ⟨.degenerate (.noContrast "kernel" (values t.weights).length v),
          some index, some seed⟩)) before
  | packer {e after} (hinput : ∀ v, ¬ Uniform (values t.buffers.input) v)
      (hweights : ∀ v, ¬ Uniform (values t.weights) v)
      (hrun : (bench.pack config.channels config.kernelSize config.tile t.weights
        t.buffers.packed).run.run before = (.error e, after)) :
      Ends bench config t q index seed before (.error e) after
  | lack {packed after} (hpack : Packs bench config t before packed after)
      (hroom : ¬ Convolution.Roomy config.toSettings) :
      Ends bench config t q index seed before
        (.error (.fault (Convolution.lack config.toSettings))) after
  | words {packed v after} (hpack : Convolves bench config t before packed after)
      (h : Uniform (wordsOf config t) v) :
      Ends bench config t q index seed before
        (.error (Failure.raise ⟨.degenerate (.zeroRange v), some index, some seed⟩)) after
  | vectorParams {packed between e after} (hpack : Convolves bench config t before packed between)
      (hrange : ∀ v, ¬ Uniform (wordsOf config t) v)
      (hrun : (bench.vectorParams q.requantizationScale q.zeroPoint config.qmin
        config.qmax).run.run between = (.error e, after)) :
      Ends bench config t q index seed before (.error e) after
  | scalarParams {packed params afterPack afterVector e after}
      (hpack : Convolves bench config t before packed afterPack)
      (hrange : ∀ v, ¬ Uniform (wordsOf config t) v)
      (hvector : (bench.vectorParams q.requantizationScale q.zeroPoint config.qmin
        config.qmax).run.run afterPack = (.ok params, afterVector))
      (hrun : (bench.scalarParams q.requantizationScale q.zeroPoint config.qmin
        config.qmax).run.run afterVector = (.error e, after)) :
      Ends bench config t q index seed before (.error e) after
  | kernel {outcome e after} (hcall : Calls bench config t q before outcome after)
      (herror : outcome.error? = some e) :
      Ends bench config t q index seed before (.error e) after
  | undescribed {outcome after} (hcall : Calls bench config t q before outcome after)
      (herror : outcome.error? = none) (hdescribe : ¬ config.Describable) :
      Ends bench config t q index seed before (.error (.fault .unusableValue)) after
  | tolerance {outcome after} {x c : Nat} (hcall : Calls bench config t q before outcome after)
      (herror : outcome.error? = none) (hdescribe : config.Describable)
      (hx : x < config.width.toNat) (hc : c < config.channels.toNat)
      (hpast : ¬ Within config t q outcome.buffers.output x c)
      (hfirst : ∀ x' < config.width.toNat, ∀ c' < config.channels.toNat,
        Precedes (x', c') (x, c) → Within config t q outcome.buffers.output x' c') :
      Ends bench config t q index seed before
        (.error (Failure.raise ⟨.toleranceExceeded x c
          (q.expected config.qmin config.qmax (t.word config.toSettings x c))
          (observedAt config q outcome.buffers.output x c) Affine.tolerance, some index,
          some seed⟩)) after
  | corruption {outcome after} {place : Nat}
      (hcall : Calls bench config t q before outcome after) (herror : outcome.error? = none)
      (hdescribe : config.Describable) (hwithin : AllWithin config t q outcome.buffers.output)
      (hplace : Output.IsPadding config.toSettings place)
      (hchanged : ¬ Kept t outcome.buffers.output place)
      (hfirst : ∀ earlier < place, Output.IsPadding config.toSettings earlier →
        Kept t outcome.buffers.output earlier) :
      Ends bench config t q index seed before
        (.error (Failure.raise ⟨.outputCorrupted place, some index, some seed⟩)) after
  | passes {outcome after m} (hcall : Calls bench config t q before outcome after)
      (herror : outcome.error? = none) (hdescribe : config.Describable)
      (hwithin : AllWithin config t q outcome.buffers.output)
      (hkept : ∀ place, Output.IsPadding config.toSettings place →
        Kept t outcome.buffers.output place)
      (hmetrics : Measures config t q outcome.buffers.output m) :
      Ends bench config t q index seed before (.ok m) after

theorem Calls.output_size (hkernel : bench.kernel.KeepsSize) {before after : σ}
    {outcome : Kernel.Outcome} (h : Calls bench config t q before outcome after) :
    outcome.buffers.output.size = t.buffers.output.size := by
  cases h with
  | @intro packed params afterScalar _ _ _ hrun =>
    have hsize := hkernel (kernelCall config (repacked t packed) params) afterScalar
    rw [hrun] at hsize
    exact hsize

section Comparison

variable {written : Bytes} (hsane : Affine.Sane q.scale)
  (hzero : 0 ≤ q.zeroPoint ∧ q.zeroPoint ≤ 255)

include hsane hzero

theorem exceeds_eq_false_iff (x c : Nat) :
    exceeds config q (t.word config.toSettings) written (x, c) = false ↔
      Within config t q written x c := by
  have hword : |t.word config.toSettings x c| ≤ 2 ^ 32 :=
    (Trial.abs_word_le x c).trans (by norm_num)
  rw [Bool.eq_false_iff, ne_eq, exceeds_iff_lt hsane hzero hword, not_lt, Within]

theorem find?_exceeds_eq_some {x c : Nat} :
    (cells config.width.toNat config.channels.toNat).find?
        (exceeds config q (t.word config.toSettings) written) = some (x, c) ↔
      (x < config.width.toNat ∧ c < config.channels.toNat) ∧ ¬ Within config t q written x c ∧
        ∀ x' < config.width.toNat, ∀ c' < config.channels.toNat,
          Precedes (x', c') (x, c) → Within config t q written x' c' := by
  rw [find?_eq_some_iff_first (pairwise_cells _ _) precedes_asymm, mem_cells,
    ← exceeds_eq_false_iff hsane hzero, Bool.not_eq_false]
  refine and_congr_right fun _ ↦ and_congr_right fun _ ↦ ⟨fun h x' hx' c' hc' hlt ↦ ?_, ?_⟩
  · exact (exceeds_eq_false_iff hsane hzero x' c').1 (h _ (mem_cells.2 ⟨hx', hc'⟩) hlt)
  · rintro h ⟨x', c'⟩ hmem hlt
    obtain ⟨hx', hc'⟩ := mem_cells.1 hmem
    exact (exceeds_eq_false_iff hsane hzero x' c').2 (h x' hx' c' hc' hlt)

theorem find?_exceeds_eq_none :
    (cells config.width.toNat config.channels.toNat).find?
        (exceeds config q (t.word config.toSettings) written) = none ↔
      AllWithin config t q written := by
  rw [List.find?_eq_none]
  constructor
  · intro h x hx c hc
    exact (exceeds_eq_false_iff hsane hzero x c).1
      (Bool.eq_false_iff.2 (h _ (mem_cells.2 ⟨hx, hc⟩)))
  · rintro h ⟨x, c⟩ hmem
    obtain ⟨hx, hc⟩ := mem_cells.1 hmem
    exact Bool.eq_false_iff.1 ((exceeds_eq_false_iff hsane hzero x c).2 (h x hx c hc))

theorem allWithin_or_exists_first (config : Config) (t : Trial) (written : Bytes) :
    AllWithin config t q written ∨
      ∃ x c, (x < config.width.toNat ∧ c < config.channels.toNat) ∧
        ¬ Within config t q written x c ∧
        ∀ x' < config.width.toNat, ∀ c' < config.channels.toNat,
          Precedes (x', c') (x, c) → Within config t q written x' c' := by
  rcases hfind : (cells config.width.toNat config.channels.toNat).find?
    (exceeds config q (t.word config.toSettings) written) with _ | ⟨x, c⟩
  · exact .inl ((find?_exceeds_eq_none hsane hzero).1 hfind)
  · exact .inr ⟨x, c, (find?_exceeds_eq_some hsane hzero).1 hfind⟩

end Comparison

section Padding

variable {written : Bytes} (ht : t.Fits config.toSettings)
  (hsize : written.size = t.buffers.output.size)

include ht hsize

theorem firstChanged_eq_some {place : Nat} (hplace : Output.IsPadding config.toSettings place)
    (hchanged : ¬ Kept t written place)
    (hfirst : ∀ earlier < place, Output.IsPadding config.toSettings earlier →
      Kept t written earlier) :
    Output.firstChanged (paddingOf config t) written = .ok (some (place : Int)) := by
  rw [paddingOf, Output.firstChanged_eq config.regular ht.output_size hsize,
    (Output.find?_paddingPlaces_eq_some config.regular).2 ⟨hplace, decide_eq_true hchanged,
      fun earlier hlt hpadding ↦ decide_eq_false (not_not_intro (hfirst earlier hlt hpadding))⟩]

theorem firstChanged_eq_none (hkept : ∀ place, Output.IsPadding config.toSettings place →
    Kept t written place) : Output.firstChanged (paddingOf config t) written = .ok none := by
  rw [paddingOf, Output.firstChanged_eq config.regular ht.output_size hsize,
    (Output.find?_paddingPlaces_eq_none config.regular).2 fun place hplace ↦
      decide_eq_false (not_not_intro (hkept place hplace))]

omit ht hsize in
theorem exists_firstChanged (config : Config) (t : Trial) (written : Bytes) :
    (∀ place, Output.IsPadding config.toSettings place → Kept t written place) ∨
      ∃ place : Nat, Output.IsPadding config.toSettings place ∧ ¬ Kept t written place ∧
        ∀ earlier < place, Output.IsPadding config.toSettings earlier →
          Kept t written earlier := by
  classical
  by_cases h : ∃ place, Output.IsPadding config.toSettings place ∧ ¬ Kept t written place
  · refine .inr ⟨Nat.find h, (Nat.find_spec h).1, (Nat.find_spec h).2,
      fun earlier hlt hpadding ↦ ?_⟩
    by_contra hchanged
    exact Nat.find_min h hlt ⟨hpadding, hchanged⟩
  · push Not at h
    exact .inl h

end Padding

/-- A kernel that only fills the rows leaves the padding as it was. -/
theorem kept_filled {packed : Bytes} {params : FixedPoint.Params}
    (hfits : (kernelCall config (repacked t packed) params).Fits config.kernelSize config.tile)
    (code : Nat → Nat → UInt8) {place : Nat}
    (hplace : Output.IsPadding config.toSettings place) :
    Kept t ((kernelCall config (repacked t packed) params).filled code).buffers.output place := by
  obtain ⟨x, c, -, hc, hc', rfl⟩ := hplace
  obtain ⟨i, rfl⟩ := Nat.exists_eq_add_of_le hc
  have houtside : ∀ y < config.width.toNat,
      x * config.effectiveOutputStride.toNat + (config.channels.toNat + i) <
          y * (kernelCall config (repacked t packed) params).stride ∨
        y * (kernelCall config (repacked t packed) params).stride + config.channels.toNat ≤
          x * config.effectiveOutputStride.toNat + (config.channels.toNat + i) := by
    intro y _
    rw [kernelCall_stride, ← Nat.add_assoc]
    exact Output.outside_of_padding hc' y
  rw [Kept, Array.getD_eq_getD_getElem?, Array.getD_eq_getD_getElem?,
    hfits.getElem?_filled_of_outside _ houtside]
  rfl

section Fitting

variable (hheight : 1 ≤ config.kernelHeight) (hwidth : 1 ≤ config.kernelWidth)
  (ht : t.Fits config.toSettings) (hkernel : bench.kernel.KeepsSize)
  (hq : Affine.ofAccumulators (wordsOf config t) = .ok q)

include hheight hwidth ht hkernel hq

/-- A trial whose kernel finishes ends with the verdict on the output. -/
theorem Calls.run {index : Int} {s : Session σ} {outcome : Kernel.Outcome} {after : σ}
    (h : Calls bench config t q s.outside outcome after) (herror : outcome.error? = none) :
    ∃ m history, Measures config t q outcome.buffers.output m ∧
      (examine bench config index t).run.run s =
        (verdict config index s.seed (paddingOf config t) q (t.word config.toSettings)
          outcome.buffers.output m, { s with outside := after, history }) := by
  have hwritten : (outcome.buffers.output.size : Int) = config.outputSize := by
    rw [h.output_size hkernel, ht.output_size]
  obtain ⟨m, hm, -, hcompare⟩ := compare_run q (t.word config.toSettings) hwritten index s.seed
    (paddingOf config t) { s with outside := after }
  exact ⟨m, _, hm, (examine_of_calls hheight hwidth ht hq h herror).trans hcompare⟩

variable (hsane : Affine.Sane q.scale) (hzero : 0 ≤ q.zeroPoint ∧ q.zeroPoint ≤ 255)

include hsane hzero

/-- Every end is one that the trial comes to. -/
theorem Ends.run {index : Int} {s : Session σ} {r : Except Error Metrics} {after : σ}
    (h : Ends bench config t q index s.seed s.outside r after) :
    ∃ history, (examine bench config index t).run.run s =
      (r, { s with outside := after, history }) := by
  cases h with
  | input h => exact ⟨s.history, examine_of_uniform_input h⟩
  | weights hinput h => exact ⟨s.history, examine_of_uniform_weights hinput h⟩
  | packer hinput hweights hrun =>
    exact ⟨s.history, examine_of_pack_error ht hinput hweights hrun⟩
  | lack hpack hroom =>
    exact ⟨s.history, examine_of_lack hheight hwidth ht hpack hroom⟩
  | words hpack h => exact ⟨s.history, examine_of_uniform_words hheight hwidth ht hpack h⟩
  | vectorParams hpack hrange hrun =>
    exact ⟨s.history, examine_of_params_error hheight hwidth ht hpack hrange
      (Parameters.derive_vector_error hq hrun)⟩
  | scalarParams hpack hrange hvector hrun =>
    exact ⟨s.history, examine_of_params_error hheight hwidth ht hpack hrange
      (Parameters.derive_scalar_error hq hvector hrun)⟩
  | kernel hcall herror =>
    exact ⟨s.history, examine_of_kernel_error hheight hwidth ht hq hcall herror⟩
  | undescribed hcall herror hdescribe =>
    obtain ⟨m, history, -, hrun⟩ := hcall.run hheight hwidth ht hkernel hq herror
    rw [verdict, if_neg hdescribe] at hrun
    exact ⟨history, hrun⟩
  | tolerance hcall herror hdescribe hx hc hpast hfirst =>
    obtain ⟨m, history, -, hrun⟩ := hcall.run hheight hwidth ht hkernel hq herror
    rw [verdict, if_pos hdescribe,
      (find?_exceeds_eq_some hsane hzero).2 ⟨⟨hx, hc⟩, hpast, hfirst⟩] at hrun
    exact ⟨history, hrun⟩
  | corruption hcall herror hdescribe hwithin hplace hchanged hfirst =>
    obtain ⟨m, history, -, hrun⟩ := hcall.run hheight hwidth ht hkernel hq herror
    rw [verdict, if_pos hdescribe, (find?_exceeds_eq_none hsane hzero).2 hwithin,
      firstChanged_eq_some ht (hcall.output_size hkernel) hplace hchanged hfirst] at hrun
    exact ⟨history, hrun⟩
  | passes hcall herror hdescribe hwithin hkept hmetrics =>
    obtain ⟨m, history, hm, hrun⟩ := hcall.run hheight hwidth ht hkernel hq herror
    rw [verdict, if_pos hdescribe, (find?_exceeds_eq_none hsane hzero).2 hwithin,
      firstChanged_eq_none ht (hcall.output_size hkernel) hkept] at hrun
    obtain rfl := Except.ok.inj (hm.symm.trans hmetrics)
    exact ⟨history, hrun⟩

omit hheight hwidth ht hkernel hq in
/-- Every trial comes to one of the ends. -/
theorem exists_ends (bench : Bench σ) (config : Config) (t : Trial) (index seed : Int)
    (before : σ) : ∃ r after, Ends bench config t q index seed before r after := by
  -- the questions come in the order of the stages, so each one may use the answers before it
  by_cases hinput : ∃ v, Uniform (values t.buffers.input) v
  · obtain ⟨v, h⟩ := hinput
    exact ⟨_, _, .input h⟩
  by_cases hweights : ∃ v, Uniform (values t.weights) v
  · obtain ⟨v, h⟩ := hweights
    exact ⟨_, _, .weights (not_exists.1 hinput) h⟩
  rw [not_exists] at hinput hweights
  rcases hpack : (bench.pack config.channels config.kernelSize config.tile t.weights
    t.buffers.packed).run.run before with ⟨e | packed, afterPack⟩
  · exact ⟨_, _, .packer hinput hweights hpack⟩
  by_cases hroom : Convolution.Roomy config.toSettings
  swap
  · exact ⟨_, _, .lack ⟨hinput, hweights, hpack⟩ hroom⟩
  have hpacks : Convolves bench config t before packed afterPack :=
    ⟨⟨hinput, hweights, hpack⟩, hroom⟩
  by_cases hrange : ∃ v, Uniform (wordsOf config t) v
  · obtain ⟨v, h⟩ := hrange
    exact ⟨_, _, .words hpacks h⟩
  rw [not_exists] at hrange
  rcases hvector : (bench.vectorParams q.requantizationScale q.zeroPoint config.qmin
    config.qmax).run.run afterPack with ⟨e | params, afterVector⟩
  · exact ⟨_, _, .vectorParams hpacks hrange hvector⟩
  rcases hscalar : (bench.scalarParams q.requantizationScale q.zeroPoint config.qmin
    config.qmax).run.run afterVector with ⟨e | other, afterScalar⟩
  · exact ⟨_, _, .scalarParams hpacks hrange hvector hscalar⟩
  rcases hrun : (bench.kernel.run (kernelCall config (repacked t packed) params)).run afterScalar
    with ⟨outcome, after⟩
  have hcall : Calls bench config t q before outcome after :=
    .intro (.intro hpacks hrange hvector hscalar) hrun
  rcases herror : outcome.error? with _ | e
  · by_cases hdescribe : config.Describable
    swap
    · exact ⟨_, _, .undescribed hcall herror hdescribe⟩
    rcases allWithin_or_exists_first hsane hzero config t outcome.buffers.output with
      hwithin | ⟨x, c, ⟨hx, hc⟩, hpast, hfirst⟩
    · rcases exists_firstChanged config t outcome.buffers.output with
        hkept | ⟨place, hplace, hchanged, hfirst⟩
      · obtain ⟨m, hm, -⟩ := exists_metrics config q (t.word config.toSettings)
          outcome.buffers.output
        exact ⟨_, _, .passes hcall herror hdescribe hwithin hkept hm⟩
      · exact ⟨_, _, .corruption hcall herror hdescribe hwithin hplace hchanged hfirst⟩
    · exact ⟨_, _, .tolerance hcall herror hdescribe hx hc hpast hfirst⟩
  · exact ⟨_, _, .kernel hcall herror⟩

omit hheight hwidth ht hkernel hq hsane hzero in
theorem runTrial_of_draw {index : Int} {s s' : Session σ}
    (h : (draw (Trial.draw config.toSettings bench.script)).run.run s = (.ok t, s')) :
    (runTrial bench config index).run.run s = (examine bench config index t).run.run s' :=
  run_bind_ok h

omit hq hsane hzero in
/-- A trial ends as its stages say and in no other way. It returns its metrics exactly when every
stage is passed, its configuration can be described, all codes are within the tolerance and the
padding is kept. -/
theorem examine_ends : ∃ q, Affine.ofAccumulators (wordsOf config t) = .ok q ∧
    (∀ (index : Int) (s : Session σ) (r : Except Error Metrics) (after : σ),
      Ends bench config t q index s.seed s.outside r after ↔
        ((examine bench config index t).run.run s).1 = r ∧
          ((examine bench config index t).run.run s).2.outside = after) ∧
    (∀ (index : Int) (s : Session σ) (m : Metrics),
      ((examine bench config index t).run.run s).1 = .ok m ↔
        config.Describable ∧ ∃ outcome after, Calls bench config t q s.outside outcome after ∧
          outcome.error? = none ∧
          AllWithin config t q outcome.buffers.output ∧
          (∀ place, Output.IsPadding config.toSettings place →
            Kept t outcome.buffers.output place) ∧
          Measures config t q outcome.buffers.output m) ∧
    ∀ (index : Int) (s s' : Session σ),
      (draw (Trial.draw config.toSettings bench.script)).run.run s = (.ok t, s') →
        (runTrial bench config index).run.run s = (examine bench config index t).run.run s' := by
  obtain ⟨q, hq, hsane, hzero⟩ := exists_quantization config t
  have hends : ∀ (index : Int) (s : Session σ) (r : Except Error Metrics) (after : σ),
      Ends bench config t q index s.seed s.outside r after ↔
        ((examine bench config index t).run.run s).1 = r ∧
          ((examine bench config index t).run.run s).2.outside = after := by
    intro index s r after
    constructor
    · intro h
      obtain ⟨history, hrun⟩ := h.run hheight hwidth ht hkernel hq hsane hzero
      rw [hrun]
      exact ⟨rfl, rfl⟩
    · rintro ⟨rfl, rfl⟩
      obtain ⟨r, after, h⟩ := exists_ends hsane hzero bench config t index s.seed s.outside
      obtain ⟨history, hrun⟩ := h.run hheight hwidth ht hkernel hq hsane hzero
      rw [hrun]
      exact h
  refine ⟨q, hq, hends, fun index s m ↦ ⟨fun h ↦ ?_, ?_⟩, fun index s s' ↦ runTrial_of_draw⟩
  · cases (hends index s _ _).2 ⟨h, rfl⟩ with
    | passes hcall herror hdescribe hwithin hkept hmetrics =>
      exact ⟨hdescribe, _, _, hcall, herror, hwithin, hkept, hmetrics⟩
  · rintro ⟨hdescribe, outcome, after, hcall, herror, hwithin, hkept, hmetrics⟩
    exact ((hends index s _ _).1 (.passes hcall herror hdescribe hwithin hkept hmetrics)).1

end Fitting

def wreckingKernel : Kernel Nat where
  name := "wrecking"
  run call count := (⟨⟨#[], #[], #[], call.buffers.output.map fun _ ↦ 0⟩, none⟩, count + 1)

theorem wreckingKernel_keepsSize : wreckingKernel.KeepsSize := fun _ _ ↦ Array.size_map

theorem examine_ends_wreckingKernel :
    ∃ e, ((examine (Bench.ofKernel wreckingKernel) tallConfig 0 wrappingTrial).run.run
      { seed := 9, stream := .ofSeed 9, outside := 0 }).1 = .error e := by
  have hfits : wrappingTrial.Fits tallConfig.toSettings :=
    ⟨by decide, by decide, by decide, by decide, by decide, by decide⟩
  have hkeeps : (Bench.ofKernel wreckingKernel).kernel.KeepsSize := wreckingKernel_keepsSize
  obtain ⟨q, -, -, hreturns, -⟩ := examine_ends (by decide) (by decide) hfits hkeeps
  cases hresult : ((examine (Bench.ofKernel wreckingKernel) tallConfig 0 wrappingTrial).run.run
      { seed := 9, stream := .ofSeed 9, outside := 0 }).1 with
  | error e => exact ⟨e, rfl⟩
  | ok m =>
    obtain ⟨-, outcome, after, hcall, -, -, hkept, -⟩ := (hreturns 0 _ m).1 hresult
    have hpadding : Output.IsPadding tallConfig.toSettings 3 :=
      ⟨0, 3, by decide, by decide, by decide, rfl⟩
    have hwrecked : ¬ Kept wrappingTrial (wrappingTrial.buffers.output.map fun _ ↦ 0) 3 := by
      decide +kernel
    cases hcall with
    | intro _ hrun =>
      cases hrun
      exact absurd (hkept 3 hpadding) hwrecked

def steppedBytes (size : Nat) : Bytes := .ofFn fun i : Fin size ↦ if i.val = 0 then 0 else 255

theorem not_uniform_steppedBytes (size : Nat) (v : Int) :
    ¬ Contrast.Uniform (values (steppedBytes size)) v := by
  rintro ⟨hlength, hall⟩
  have hsize : 2 ≤ (steppedBytes size).size := by simpa [values] using hlength
  have hvalue : ∀ i (hi : i < (steppedBytes size).size),
      (((steppedBytes size)[i]).toNat : Int) = v :=
    fun i hi ↦ hall _ (List.mem_map_of_mem (Array.getElem_mem_toList hi))
  have hfirst : (steppedBytes size)[0] = 0 := by simp [steppedBytes]
  have hsecond : (steppedBytes size)[1] = 255 := by simp [steppedBytes]
  have hzero := hvalue 0 (by omega)
  have hlarge := hvalue 1 (by omega)
  rw [hfirst] at hzero
  rw [hsecond, ← hzero] at hlarge
  cases hlarge

def steppedTrial (s : Settings) : Trial where
  buffers := { (Trial.loudest s #[]).buffers with input := steppedBytes s.inputSize.toNat }
  weights := steppedBytes (s.channels * s.kernelSize).toNat
  table := Trial.rowViews s s.inputSize.toNat

theorem steppedTrial_laid (config : Config) (hheight : 1 ≤ config.kernelHeight)
    (hwidth : 1 ≤ config.kernelWidth) :
    (steppedTrial config.toSettings).Laid config.toSettings := by
  have h : (Trial.loudest config.toSettings
      (Trial.rowViews config.toSettings config.inputSize.toNat)).Drawn config.toSettings :=
    Trial.loudest_drawn config.regular hheight hwidth (.refl _)
  have hinput : (steppedTrial config.toSettings).buffers.input.size = config.inputSize.toNat := by
    simp [steppedTrial, steppedBytes]
  refine ⟨?_, ?_, h.packed_size, h.bias_size, h.output_size, ?_⟩
  · rw [hinput, Int.toNat_of_nonneg (Trial.inputSize_nonneg config.regular hheight hwidth)]
  · rw [← h.weights_size]
    simp [steppedTrial, steppedBytes, Trial.loudest]
  · rw [hinput]
    exact .refl _

/-- Where the samples have no room there are trials that never get to their kernel. -/
theorem examine_steppedTrial (bench : Bench σ) (config : Config) (index : Int) (s : Session σ)
    (hheight : 1 ≤ config.kernelHeight) (hwidth : 1 ≤ config.kernelWidth)
    (hroom : ¬ Convolution.Roomy config.toSettings) {packed : Bytes} {after : σ}
    (hpack : (bench.pack config.channels config.kernelSize config.tile
      (steppedTrial config.toSettings).weights
      (steppedTrial config.toSettings).buffers.packed).run.run s.outside = (.ok packed, after)) :
    (examine bench config index (steppedTrial config.toSettings)).run.run s =
      (.error (.fault (Convolution.lack config.toSettings)), { s with outside := after }) :=
  examine_of_lack hheight hwidth
    ((steppedTrial_laid config hheight hwidth).fits config.regular hheight hwidth)
    ⟨not_uniform_steppedBytes _, not_uniform_steppedBytes _, hpack⟩ hroom

def idleKernel : Kernel Unit where
  name := "idle"
  run call := pure ⟨call.buffers, none⟩

def tameBench : Bench Unit where
  kernel := idleKernel
  pack _ _ _ _ packed := pure packed
  vectorParams _ _ _ _ := pure ⟨1610612736, 2, 3, 1, 5, 2, 250, .vector⟩
  scalarParams _ _ _ _ := pure ⟨1610612736, 2, 3, 1, 5, 2, 250, .vector⟩

/-- Two channels, with a subsampling of 4301 digits that its only position does not use. -/
def wordyConfig : Config := ⟨{ channels := 2, subsampling := 10 ^ 4300 }, by decide +kernel⟩

def wordyTrial : Trial where
  buffers := {
    input := #[0, 0, 0, 0, 0, 0, 0, 0, 127, 128]
    packed := #[127, 127]
    bias := #[0, 10]
    output := #[7, 7] }
  weights := #[127, 128]
  table := #[⟨8, 10⟩]

theorem wordyTrial_drawn : wordyTrial.Drawn wordyConfig.toSettings where
  input_size := by decide +kernel
  weights_size := rfl
  packed_size := rfl
  bias_size := rfl
  output_size := by decide +kernel
  bias_range := Trial.bias_range_of_all (by decide)
  table_perm := by decide +kernel

/-- The buffers fit, nothing is degenerate and no collaborator fails, and yet both trials end with
an unusable value: one has no room for its samples, and one cannot be described. -/
theorem examine_unlisted :
    (steppedTrial immenseConfig.toSettings).Fits immenseConfig.toSettings ∧
      wordyTrial.Fits wordyConfig.toSettings ∧
      (∀ call state, ((tameBench.kernel.run call).run state).1.error? = none) ∧
      (∀ channels kernelSize tile weights packed state,
        ((tameBench.pack channels kernelSize tile weights packed).run.run state).1 =
          .ok packed) ∧
      (∀ scale zeroPoint qmin qmax state,
        ((tameBench.vectorParams scale zeroPoint qmin qmax).run.run state).1.isOk = true ∧
        ((tameBench.scalarParams scale zeroPoint qmin qmax).run.run state).1.isOk = true) ∧
      ((examine tameBench immenseConfig 0 (steppedTrial immenseConfig.toSettings)).run.run
        { seed := 9, stream := .ofSeed 9, outside := () }).1 = .error (.fault .unusableValue) ∧
      ((examine tameBench wordyConfig 0 wordyTrial).run.run
        { seed := 9, stream := .ofSeed 9, outside := () }).1 = .error (.fault .unusableValue) := by
  have hlaid := steppedTrial_laid immenseConfig (by decide) (by decide)
  have hwordy := wordyTrial_drawn.laid.fits wordyConfig.regular (by decide) (by decide)
  refine ⟨hlaid.fits immenseConfig.regular (by decide) (by decide), hwordy, fun _ _ ↦ rfl,
    fun _ _ _ _ _ _ ↦ rfl, fun _ _ _ _ _ ↦ ⟨rfl, rfl⟩, ?_, by decide +kernel⟩
  exact congrArg (·.1)
    (examine_steppedTrial tameBench immenseConfig 0 _ (by decide) (by decide) (by decide) rfl)

end Depthwise.Session
