import Depthwise.Proofs.Session.Endings
import Depthwise.Proofs.Session.Overshoot

namespace Depthwise.Session

open Kernel (Family)

variable {config : Config} {t : Trial} {packed : Bytes} {params : Parameters}

theorem observedAt_of_getElem? {output : Affine} {written : Bytes} {x c : Nat} {b : UInt8}
    (h : written[x * config.effectiveOutputStride.toNat + c]? = some b) :
    observedAt config output written x c = (b.toNat : Int) - output.zeroPoint := by
  rw [observedAt, Array.getD_eq_getD_getElem?, h, Option.getD_some]

/-- A code that is two or more away from the one that a shipped kernel stores. -/
def FarOff (config : Config) (t : Trial) (written : Bytes) (x c : Nat) : Prop :=
  ∃ packed params, Prepared config t packed params ∧ ∀ family : Family, ∃ b b' : UInt8,
    (shippedOutput family config t packed params)[
      x * config.effectiveOutputStride.toNat + c]? = some b ∧
    written[x * config.effectiveOutputStride.toNat + c]? = some b' ∧
    2 ≤ |(b'.toNat : Int) - b.toNat|

section Drawn

variable (hheight : 1 ≤ config.kernelHeight) (hwidth : 1 ≤ config.kernelWidth)
  (hks : config.kernelSize ≤ 131071) (ht : t.Drawn config.toSettings)

include hheight hwidth hks ht

section Prepared

variable (hprep : Prepared config t packed params)

include hprep

theorem exists_shippedOutput_code (family : Family) {x c : Nat} (hx : x < config.width.toNat)
    (hc : c < config.channels.toNat) :
    ∃ b : UInt8, (shippedOutput family config t packed params)[
        x * config.effectiveOutputStride.toNat + c]? = some b ∧
      |(((b.toNat : Int) - params.output.zeroPoint : Int) : Rat) -
        (params.output.expected config.qmin config.qmax
          (t.accumulator config.toSettings x c)).toRat| < 751 / 1000 := by
  have hcode := shippedOutput_code hheight hwidth hks ht hprep family hx hc
  have hdev := abs_shipped_sub_expected_lt hheight hwidth hks ht hprep family hx hc
  rw [observedAt_of_getElem? hcode] at hdev
  exact ⟨_, hcode, hdev⟩

theorem exceeds_of_two_le (family : Family) {written : Bytes} {x c : Nat} {b b' : UInt8}
    (hx : x < config.width.toNat) (hc : c < config.channels.toNat)
    (hb : (shippedOutput family config t packed params)[
      x * config.effectiveOutputStride.toNat + c]? = some b)
    (hb' : written[x * config.effectiveOutputStride.toNat + c]? = some b')
    (hdiff : 2 ≤ |(b'.toNat : Int) - b.toNat|) :
    exceeds config params.output (t.accumulator config.toSettings) written (x, c) = true := by
  have hdev := abs_shipped_sub_expected_lt hheight hwidth hks ht hprep family hx hc
  rw [observedAt_of_getElem? hb] at hdev
  rw [exceeds_iff hks ht hprep, observedAt_of_getElem? hb']
  set e := (params.output.expected config.qmin config.qmax
    (t.accumulator config.toSettings x c)).toRat
  set o : Rat := (((b.toNat : Int) - params.output.zeroPoint : Int) : Rat) with ho
  set o' : Rat := (((b'.toNat : Int) - params.output.zeroPoint : Int) : Rat) with ho'
  have hapart : (2 : Rat) ≤ |o' - o| := by
    have hshift : o' - o = (((b'.toNat : Int) - b.toNat : Int) : Rat) := by
      rw [ho, ho']
      push_cast
      ring
    rw [hshift]
    exact_mod_cast hdiff
  have htriangle : |o' - o| ≤ |e - o'| + |o - e| := by
    rw [abs_sub_comm e, abs_sub_comm o]
    exact abs_sub_le o' e o
  linarith

/-- A byte more than two codes below an expected value is two or more away from the code of a
shipped kernel. -/
theorem exists_two_le (family : Family) {x c : Nat} (hx : x < config.width.toNat)
    (hc : c < config.channels.toNat) (b' : UInt8)
    (hbelow : (b'.toNat : Rat) + 11 / 4 ≤ params.output.zeroPoint +
      (params.output.expected config.qmin config.qmax
        (t.accumulator config.toSettings x c)).toRat) :
    ∃ b : UInt8, (shippedOutput family config t packed params)[
        x * config.effectiveOutputStride.toNat + c]? = some b ∧
      2 ≤ |(b'.toNat : Int) - b.toNat| := by
  obtain ⟨b, hb, hdev⟩ :=
    exists_shippedOutput_code hheight hwidth hks ht hprep family hx hc
  refine ⟨b, hb, ?_⟩
  push_cast at hdev
  have hapart : (1 : Rat) < ((b.toNat - b'.toNat : Int) : Rat) := by
    push_cast
    linarith [(abs_lt.1 hdev).1]
  have hapart' : (1 : Int) < b.toNat - b'.toNat := by exact_mod_cast hapart
  rw [abs_sub_comm]
  exact le_abs.2 (.inl hapart')

end Prepared

/-- After any preparation the codes of a shipped kernel are less than 0.751 from their expected
values. A kernel that leaves a code two or more away from one of them fails at that place or at an
earlier one, unless it raises an error itself or its failure cannot be written. -/
theorem examine_of_wrong_code (hcontrast : Contrasting config.toSettings t) :
    ∃ packed params, Prepared config t packed params ∧
      ∀ family : Family,
        (family.run config.kernelSize config.tile
          (preparedCall config t packed params)).error? = none ∧
        (∀ x < config.width.toNat, ∀ c < config.channels.toNat, ∃ b : UInt8,
          (shippedOutput family config t packed params)[
            x * config.effectiveOutputStride.toNat + c]? = some b ∧
          |(((b.toNat : Int) - params.output.zeroPoint : Int) : Rat) -
            (params.output.expected config.qmin config.qmax
              (t.accumulator config.toSettings x c)).toRat| < 751 / 1000) ∧
        ∀ {σ : Type} (kernel : Kernel σ) (index : Int) (s : Session σ) (outcome : Kernel.Outcome)
          (outside : σ),
          (kernel.run (preparedCall config t packed params)).run s.outside = (outcome, outside) →
          (∀ e, outcome.error? = some e →
            (examine (Bench.ofKernel kernel) config index t).run.run s =
              (.error e, { s with outside })) ∧
          (outcome.error? = none →
          outcome.buffers.output.size = t.buffers.output.size →
          ∀ x < config.width.toNat, ∀ c < config.channels.toNat, ∀ b b' : UInt8,
          (shippedOutput family config t packed params)[
            x * config.effectiveOutputStride.toNat + c]? = some b →
          outcome.buffers.output[x * config.effectiveOutputStride.toNat + c]? = some b' →
          2 ≤ |(b'.toNat : Int) - b.toNat| →
          ∃ (x' c' : Nat) (s' : Session σ), x' < config.width.toNat ∧ c' < config.channels.toNat ∧
            ((x', c') = (x, c) ∨ Precedes (x', c') (x, c)) ∧
            (examine (Bench.ofKernel kernel) config index t).run.run s =
              (.error (if Legible config.toSettings index s.seed then
                .failure ⟨.toleranceExceeded x' c'
                  (params.output.expected config.qmin config.qmax
                    (t.accumulator config.toSettings x' c'))
                  (observedAt config params.output outcome.buffers.output x' c') Affine.tolerance,
                  some index, some s.seed⟩
              else .fault .unusableValue), s')) := by
  obtain ⟨packed, params, hprep⟩ := exists_prepared hheight hwidth hks ht
  refine ⟨packed, params, hprep, fun family ↦ ⟨?_, fun x hx c hc ↦
    exists_shippedOutput_code hheight hwidth hks ht hprep family hx hc, ?_⟩⟩
  · rw [shipped_run hheight hwidth hks ht hprep]
    rfl
  · intro σ kernel index s outcome outside hrun
    refine ⟨fun e herror ↦ examine_of_raised hheight hwidth hks ht hcontrast hprep hrun herror
      index, fun herror hsize x hx c hc b b' hb hb' hdiff ↦ ?_⟩
    have hexceeds := exceeds_of_two_le hheight hwidth hks ht hprep family hx hc hb hb' hdiff
    obtain ⟨metrics, history, -, hexamine⟩ :=
      examine_of_outcome hheight hwidth hks ht hcontrast hprep hrun herror hsize index
    obtain ⟨x', c', hx', hc', hfirst, -, hverdict⟩ := verdict_of_exceeds
      hprep.meets.zeroPoint_range hx hc hexceeds index s.seed (paddingOf config t) metrics
    exact ⟨x', c', _, hx', hc', hfirst, hexamine.trans (congrArg (·, _) hverdict)⟩

theorem farOff_of_below {q : Affine} (hq : Affine.ofAccumulators (matrix config.width.toNat
    config.channels.toNat (t.accumulator config.toSettings)).flatten = .ok q) {written : Bytes}
    {x c : Nat} (hx : x < config.width.toNat) (hc : c < config.channels.toNat) {b' : UInt8}
    (hb' : written[x * config.effectiveOutputStride.toNat + c]? = some b')
    (hbelow : (b'.toNat : Rat) + 11 / 4 ≤ q.zeroPoint +
      (q.expected config.qmin config.qmax (t.accumulator config.toSettings x c)).toRat) :
    FarOff config t written x c := by
  obtain ⟨packed, params, hprep⟩ := exists_prepared hheight hwidth hks ht
  obtain rfl : q = params.output := Except.ok.inj (hq.symm.trans hprep.output_eq)
  refine ⟨packed, params, hprep, fun family ↦ ?_⟩
  obtain ⟨b, hb, hdiff⟩ := exists_two_le hheight hwidth hks ht hprep family hx hc b' hbelow
  exact ⟨b, b', hb, hb', hdiff⟩

end Drawn

theorem examine_idleKernel :
    ∃ (x c : Nat) (e : Double) (o : Int) (s' : Session Unit),
      ((x, c) = (0, 1) ∨ Precedes (x, c) (0, 1)) ∧
      (examine (Bench.ofKernel idleKernel) narrowConfig 0 liftedTrial).run.run narrowSession =
        (.error (.failure ⟨.toleranceExceeded x c e o Affine.tolerance, some 0, some 9⟩), s') := by
  obtain ⟨packed, params, hprep, hfamily⟩ := examine_of_wrong_code (by decide) (by decide)
    (by decide) liftedTrial_drawn liftedTrial_contrasting
  have houtput : Affine.ofRange 0 765 = params.output :=
    Except.ok.inj (accumulators_liftedTrial.2.symm.trans hprep.output_eq)
  obtain ⟨b, hb, hdiff⟩ := exists_two_le (by decide) (by decide) (by decide) liftedTrial_drawn hprep
    .vectorized (show 0 < narrowConfig.width.toNat by decide)
    (show 1 < narrowConfig.channels.toNat by decide) 7 (by rw [← houtput]; decide +kernel)
  obtain ⟨x, c, s', -, -, hfirst, hrun⟩ := ((hfamily .vectorized).2.2 idleKernel 0 narrowSession _
    () rfl).2 rfl rfl 0 (by decide) 1 (by decide) b 7 hb rfl hdiff
  rw [if_pos legible_narrowSession] at hrun
  exact ⟨x, c, _, _, s', hfirst, hrun⟩

def raisingKernel : Kernel Unit where
  name := "raising"
  run call := pure ⟨call.buffers, some (.complaint "RuntimeError" ["boom"])⟩

/-- The same wrong code goes unreported when the kernel raises an error of its own, and when the
configuration cannot be described. -/
theorem examine_unreported :
    (liftedTrial.Drawn narrowConfig.toSettings ∧ Contrasting narrowConfig.toSettings liftedTrial ∧
      FarOff narrowConfig liftedTrial liftedTrial.buffers.output 0 1 ∧
      ((examine (Bench.ofKernel raisingKernel) narrowConfig 0 liftedTrial).run.run
        narrowSession).1 = .error (.complaint "RuntimeError" ["boom"])) ∧
    wordyTrial.Drawn wordyConfig.toSettings ∧ Contrasting wordyConfig.toSettings wordyTrial ∧
      FarOff wordyConfig wordyTrial wordyTrial.buffers.output 0 1 ∧
      ((examine (Bench.ofKernel idleKernel) wordyConfig 0 wordyTrial).run.run
        narrowSession).1 = .error (.fault .unusableValue) := by
  have hcontrast : Contrasting wordyConfig.toSettings wordyTrial :=
    ⟨rfl, rfl, [[0, 11]], by decide +kernel, by decide⟩
  refine ⟨⟨liftedTrial_drawn, liftedTrial_contrasting, ?_, by decide +kernel⟩, wordyTrial_drawn,
    hcontrast, ?_, by decide +kernel⟩
  · exact farOff_of_below (by decide) (by decide) (by decide) liftedTrial_drawn
      accumulators_liftedTrial.2 (by decide) (by decide) rfl (by decide +kernel)
  · have hrange : Affine.ofAccumulators (matrix wordyConfig.width.toNat
        wordyConfig.channels.toNat (wordyTrial.accumulator wordyConfig.toSettings)).flatten =
          .ok (.ofRange 0 11) := by decide +kernel
    exact farOff_of_below (by decide) (by decide) (by decide) wordyTrial_drawn hrange (by decide)
      (by decide) rfl (by decide +kernel)

end Depthwise.Session
