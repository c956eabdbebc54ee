import Depthwise.Proofs.Session.Verdict

namespace Depthwise.Session

open Kernel (Family)

variable {config : Config} {t : Trial} {packed : Bytes} {params : Parameters}

section Shipped

variable (hheight : 1 ≤ config.kernelHeight) (hwidth : 1 ≤ config.kernelWidth)
  (hks : config.kernelSize ≤ 131071) (ht : t.Drawn config.toSettings)

include hheight hwidth hks ht

section Prepared

variable (hprep : Prepared config t packed params)

include hprep

theorem verdict_shipped_of_not_overshoots (family : Family) (index seed : Int) (metrics : Metrics)
    (hnone : ∀ x < config.width.toNat, ∀ c < config.channels.toNat,
      ¬ params.output.Overshoots config.qmin config.qmax (t.accumulator config.toSettings x c)) :
    (∀ a ∈ cells config.width.toNat config.channels.toNat, exceeds config params.output
      (t.accumulator config.toSettings) (shippedOutput family config t packed params) a = false) ∧
      verdict config index seed (paddingOf config t) params.output (t.accumulator config.toSettings)
        (shippedOutput family config t packed params) metrics =
          if config.Describable then .ok metrics else .error (.fault .unusableValue) := by
  have hwithin : ∀ a ∈ cells config.width.toNat config.channels.toNat,
      exceeds config params.output (t.accumulator config.toSettings)
        (shippedOutput family config t packed params) a = false := by
    rintro ⟨x, c⟩ ha
    obtain ⟨hx, hc⟩ := mem_cells.1 ha
    refine Bool.eq_false_iff.2 fun h ↦ hnone x hx c hc ?_
    exact (exceeds_shipped_iff hheight hwidth hks ht hprep family hx hc).1 h
  refine ⟨hwithin, ?_⟩
  have hfind : (cells config.width.toNat config.channels.toNat).find? (exceeds config params.output
      (t.accumulator config.toSettings) (shippedOutput family config t packed params)) = none :=
    List.find?_eq_none.2 fun a ha ↦ Bool.eq_false_iff.1 (hwithin a ha)
  rw [verdict, hfind, firstChanged_shipped hheight hwidth hks ht hprep]

theorem verdict_shipped_of_overshoots (family : Family) (index seed : Int) (metrics : Metrics)
    {x c : Nat} (hx : x < config.width.toNat) (hc : c < config.channels.toNat)
    (hover : params.output.Overshoots config.qmin config.qmax
      (t.accumulator config.toSettings x c)) :
    ∃ (x' c' : Nat) (o : Int), x' < config.width.toNat ∧ c' < config.channels.toNat ∧
      ((x', c') = (x, c) ∨ Precedes (x', c') (x, c)) ∧
      params.output.Overshoots config.qmin config.qmax (t.accumulator config.toSettings x' c') ∧
      verdict config index seed (paddingOf config t) params.output (t.accumulator config.toSettings)
        (shippedOutput family config t packed params) metrics =
        .error (if Legible config.toSettings index seed then
          .failure ⟨.toleranceExceeded x' c' (params.output.expected config.qmin config.qmax
            (t.accumulator config.toSettings x' c')) o Affine.tolerance, some index, some seed⟩
        else .fault .unusableValue) := by
  have hexceeds := (exceeds_shipped_iff hheight hwidth hks ht hprep family hx hc).2 hover
  obtain ⟨x', c', hx', hc', hfirst, hexceeds', hverdict⟩ :=
    verdict_of_exceeds hprep.meets.zeroPoint_range hx hc hexceeds index seed (paddingOf config t)
      metrics
  have hover' := (exceeds_shipped_iff hheight hwidth hks ht hprep family hx' hc').1 hexceeds'
  exact ⟨x', c', _, hx', hc', hfirst, hover', hverdict⟩

end Prepared

/-- A shipped kernel passes a trial when no accumulator overshoots. Otherwise it fails, whichever
kernel it is, at an accumulator that overshoots and that no other such accumulator comes before.
Either needs a description of the configuration, and the failure needs a text. -/
theorem examine_shipped (hcontrast : Contrasting config.toSettings t) :
    ∃ q : Affine, Affine.ofAccumulators (matrix config.width.toNat config.channels.toNat
        (t.accumulator config.toSettings)).flatten = .ok q ∧
      ∀ (family : Family) {σ : Type} (index : Int) (s : Session σ),
        ((∀ x < config.width.toNat, ∀ c < config.channels.toNat,
            ¬ q.Overshoots config.qmin config.qmax (t.accumulator config.toSettings x c)) →
          ∃ (metrics : Metrics) (s' : Session σ), metrics.numFailures = 0 ∧
            (examine (Bench.ofKernel (family.kernel σ config.kernelSize config.tile)) config index
              t).run.run s =
              (if config.Describable then .ok metrics else .error (.fault .unusableValue), s')) ∧
        ∀ x < config.width.toNat, ∀ c < config.channels.toNat,
          q.Overshoots config.qmin config.qmax (t.accumulator config.toSettings x c) →
          ∃ (x' c' : Nat) (o : Int) (s' : Session σ),
            x' < config.width.toNat ∧ c' < config.channels.toNat ∧
            ((x', c') = (x, c) ∨ Precedes (x', c') (x, c)) ∧
            q.Overshoots config.qmin config.qmax (t.accumulator config.toSettings x' c') ∧
            (examine (Bench.ofKernel (family.kernel σ config.kernelSize config.tile)) config index
              t).run.run s =
              (.error (if Legible config.toSettings index s.seed then
                .failure ⟨.toleranceExceeded x' c' (q.expected config.qmin config.qmax
                  (t.accumulator config.toSettings x' c')) o Affine.tolerance, some index,
                  some s.seed⟩
              else .fault .unusableValue), s') := by
  obtain ⟨packed, params, hprep⟩ := exists_prepared hheight hwidth hks ht
  refine ⟨params.output, hprep.output_eq, fun family σ index s ↦ ?_⟩
  have hrun := shipped_run hheight hwidth hks ht hprep family
  have herror : (family.run config.kernelSize config.tile
      (preparedCall config t packed params)).error? = none := by
    rw [hrun]
    rfl
  have hsize : (family.run config.kernelSize config.tile
      (preparedCall config t packed params)).buffers.output.size = t.buffers.output.size := by
    rw [hrun]
    exact Kernel.Call.size_filled _
  have hpure : ((family.kernel σ config.kernelSize config.tile).run
      (preparedCall config t packed params)).run s.outside =
        (family.run config.kernelSize config.tile (preparedCall config t packed params),
          s.outside) := rfl
  obtain ⟨metrics, history, hzero, hexamine⟩ :=
    examine_of_outcome hheight hwidth hks ht hcontrast hprep hpure herror hsize index
  constructor
  · intro hnone
    obtain ⟨hwithin, hverdict⟩ := verdict_shipped_of_not_overshoots hheight hwidth hks ht hprep
      family index s.seed metrics hnone
    exact ⟨metrics, _, hzero.2 hwithin, hexamine.trans (congrArg (·, _) hverdict)⟩
  · intro x hx c hc hover
    obtain ⟨x', c', o, hx', hc', hfirst, hover', hverdict⟩ := verdict_shipped_of_overshoots hheight
      hwidth hks ht hprep family index s.seed metrics hx hc hover
    exact ⟨x', c', o, _, hx', hc', hfirst, hover', hexamine.trans (congrArg (·, _) hverdict)⟩

end Shipped

def narrowConfig : Config := ⟨{ channels := 3 }, by decide⟩

def narrowTrial (bias : Array Int32) : Trial where
  buffers := {
    input := #[0, 0, 0, 0, 0, 0, 0, 0, 127, 127, 128]
    packed := #[127, 127, 127]
    bias := bias
    output := #[7, 7, 7] }
  weights := #[127, 128, 127]
  table := #[⟨8, 11⟩]

/-- At its scale of 3 the accumulator 4 is one and a third codes, and the two roundings take it to
two. -/
def liftedTrial : Trial := narrowTrial #[0, 765, 4]

def narrowSession : Session Unit where
  seed := 9
  stream := .ofSeed 9
  outside := ()

theorem legible_narrowSession : Legible narrowConfig.toSettings 0 narrowSession.seed := by
  decide +kernel

theorem narrowTrial_drawn (bias : Array Int32) (hsize : bias.size = 3)
    (hrange : bias.toList.all fun b ↦ -Trial.biasLimit ≤ b.toInt ∧ b.toInt ≤ Trial.biasLimit) :
    (narrowTrial bias).Drawn narrowConfig.toSettings where
  input_size := rfl
  weights_size := rfl
  packed_size := rfl
  bias_size := congrArg Int.ofNat hsize
  output_size := rfl
  bias_range := Trial.bias_range_of_all hrange
  table_perm := .of_eq (by rw [Trial.rowViews_eq]; rfl)

theorem narrowTrial_contrasting (bias : Array Int32) (accs : List (List Int32))
    (haccs : Convolution.accumulators narrowConfig.toSettings (narrowTrial bias) = .ok accs)
    (hcontrast : Contrast.common? (accs.map (·.map (·.toInt))).flatten = none) :
    Contrasting narrowConfig.toSettings (narrowTrial bias) where
  input := rfl
  weights := rfl
  accumulators := ⟨accs, haccs, hcontrast⟩

theorem liftedTrial_drawn : liftedTrial.Drawn narrowConfig.toSettings :=
  narrowTrial_drawn #[0, 765, 4] rfl (by decide)

theorem accumulators_liftedTrial :
    Convolution.accumulators narrowConfig.toSettings liftedTrial = .ok [[0, 765, 4]] ∧
      Affine.ofAccumulators (matrix narrowConfig.width.toNat narrowConfig.channels.toNat
        (liftedTrial.accumulator narrowConfig.toSettings)).flatten = .ok (.ofRange 0 765) := by
  decide +kernel

theorem liftedTrial_contrasting : Contrasting narrowConfig.toSettings liftedTrial :=
  narrowTrial_contrasting #[0, 765, 4] [[0, 765, 4]] accumulators_liftedTrial.1 (by decide)

theorem examine_shipped_narrowTrial :
    (∃ (x c : Nat) (e : Double) (o : Int) (s' : Session Unit),
      (examine (Bench.ofKernel (Family.vectorized.kernel Unit narrowConfig.kernelSize
        narrowConfig.tile)) narrowConfig 0 liftedTrial).run.run narrowSession =
          (.error (.failure ⟨.toleranceExceeded x c e o Affine.tolerance, some 0, some 9⟩), s')) ∧
      ∃ metrics s', metrics.numFailures = 0 ∧
        (examine (Bench.ofKernel (Family.scalar.kernel Unit narrowConfig.kernelSize
          narrowConfig.tile)) narrowConfig 0 (narrowTrial #[0, 5100, 4])).run.run narrowSession =
            (.ok metrics, s') := by
  constructor
  · obtain ⟨q, hq, hexamine⟩ := examine_shipped (by decide) (by decide) (by decide)
      liftedTrial_drawn liftedTrial_contrasting
    obtain rfl : Affine.ofRange 0 765 = q :=
      Except.ok.inj (accumulators_liftedTrial.2.symm.trans hq)
    have hover : (Affine.ofRange 0 765).Overshoots 0 255 4 :=
      ⟨1, .inl rfl, by decide +kernel, by decide +kernel, 1,
        .inl ⟨by decide, by decide +kernel, by decide +kernel, by decide +kernel⟩⟩
    obtain ⟨x, c, o, s', -, -, -, -, hrun⟩ :=
      (hexamine .vectorized 0 narrowSession).2 0 (by decide) 2 (by decide) hover
    rw [if_pos legible_narrowSession] at hrun
    exact ⟨x, c, _, o, s', hrun⟩
  · obtain ⟨q, hq, hexamine⟩ := examine_shipped (by decide) (by decide) (by decide)
      (narrowTrial_drawn #[0, 5100, 4] rfl (by decide))
      (narrowTrial_contrasting #[0, 5100, 4] [[0, 5100, 4]] (by decide +kernel) (by decide))
    obtain rfl : Affine.ofRange 0 5100 = q := by
      have hrange : Affine.ofAccumulators (matrix narrowConfig.width.toNat
          narrowConfig.channels.toNat ((narrowTrial #[0, 5100, 4]).accumulator
            narrowConfig.toSettings)).flatten = .ok (.ofRange 0 5100) := by decide +kernel
      exact Except.ok.inj (hrange.symm.trans hq)
    have hscale : (Affine.ofRange 0 5100).requantizationScale.toRat < 1 / 8 := by decide +kernel
    obtain ⟨metrics, s', hzero, hrun⟩ := (hexamine .scalar 0 narrowSession).1 fun x _ c _ ↦
      Affine.not_overshoots_of_scale (.inl hscale)
    rw [if_pos legible_narrowSession.describable] at hrun
    exact ⟨metrics, s', hzero, hrun⟩

/-- Both shipped kernels fail on the lifted accumulator. -/
theorem examine_liftedTrial :
    liftedTrial.Drawn narrowConfig.toSettings ∧ Contrasting narrowConfig.toSettings liftedTrial ∧
      ∀ family : Family, ((examine (Bench.ofKernel (family.kernel Unit narrowConfig.kernelSize
        narrowConfig.tile)) narrowConfig 0 liftedTrial).run.run narrowSession).1 =
          .error (.failure ⟨.toleranceExceeded 0 2 (.ofInt 4 / .ofInt 3) 2 Affine.tolerance, some 0,
            some 9⟩) := by
  refine ⟨liftedTrial_drawn, liftedTrial_contrasting, fun family ↦ ?_⟩
  cases family <;> decide +kernel

end Depthwise.Session
