import Depthwise.Proofs.Quantization.Saturation
import Depthwise.Proofs.Session.Endings
import Depthwise.Proofs.Session.Examination

namespace Depthwise.Session

variable {config : Config} {t : Trial} {q : Affine}

def constantKernel (σ : Type) (v : UInt8) : Kernel σ where
  name := "constant"
  run call := pure (call.filled fun _ _ ↦ v)

theorem constantKernel_keepsSize (σ : Type) (v : UInt8) : (constantKernel σ v).KeepsSize :=
  fun _ _ ↦ Kernel.Call.size_filled _

section Filled

variable {packed : Bytes} {params : FixedPoint.Params}
  (hfits : (kernelCall config (repacked t packed) params).Fits config.kernelSize config.tile)
  (v : UInt8)

include hfits

theorem observedAt_filled {x c : Nat} (hx : x < config.width.toNat)
    (hc : c < config.channels.toNat) :
    observedAt config q
        ((kernelCall config (repacked t packed) params).filled fun _ _ ↦ v).buffers.output x c =
      (v.toNat : Int) - q.zeroPoint := by
  have hcode := hfits.getElem?_filled (fun _ _ ↦ v) hx hc
  rw [kernelCall_stride] at hcode
  rw [observedAt, Array.getD_eq_getD_getElem?, hcode, Option.getD_some]

theorem allWithin_filled_iff : AllWithin config t q
    ((kernelCall config (repacked t packed) params).filled fun _ _ ↦ v).buffers.output ↔
      ∀ a ∈ wordsOf config t, |(q.expected config.qmin config.qmax a).toRat -
        ((v.toNat : Int) - q.zeroPoint : Int)| ≤ 3 / 5 := by
  constructor
  · intro h a ha
    obtain ⟨x, hx, c, hc, rfl⟩ := mem_wordsOf.1 ha
    rw [← observedAt_filled hfits v hx hc]
    exact h x hx c hc
  · intro h x hx c hc
    rw [Within, observedAt_filled hfits v hx hc]
    exact h _ (mem_wordsOf.2 ⟨x, hx, c, hc, rfl⟩)

end Filled

/-- On a trial with two accumulators or more the kernel that stores one code is past the tolerance,
unless that code is a clamp bound at which all expected values saturate. Then it passes. Either
needs a description of the configuration, and the failure needs a text. -/
theorem examine_constantKernel (hheight : 1 ≤ config.kernelHeight)
    (hwidth : 1 ≤ config.kernelWidth) (hbounds : config.qmin < config.qmax)
    (hcells : 2 ≤ config.width * config.channels) (ht : t.Drawn config.toSettings)
    (hcontrast : Contrasting config.toSettings t) :
    ∃ q, Affine.ofAccumulators (wordsOf config t) = .ok q ∧
      ∀ (v : UInt8) {σ : Type} (index : Int) (s : Session σ),
        (¬ q.Saturates config.qmin config.qmax (wordsOf config t) v.toNat →
          ∃ (x c : Nat) (s' : Session σ), x < config.width.toNat ∧ c < config.channels.toNat ∧
            (examine (Bench.ofKernel (constantKernel σ v)) config index t).run.run s =
              (.error (if Legible config.toSettings index s.seed then
                .failure ⟨.toleranceExceeded x c
                  (q.expected config.qmin config.qmax (t.word config.toSettings x c))
                  (v.toNat - q.zeroPoint) Affine.tolerance, some index, some s.seed⟩
              else .fault .unusableValue), s')) ∧
        (q.Saturates config.qmin config.qmax (wordsOf config t) v.toNat →
          ∃ (r : Except Error Metrics) (s' : Session σ),
            (examine (Bench.ofKernel (constantKernel σ v)) config index t).run.run s = (r, s') ∧
            (config.Describable → ∃ m, r = .ok m) ∧
            (¬ config.Describable → r = .error (.fault .unusableValue))) := by
  have hs := config.regular
  have hfits := ht.fits hs hheight hwidth
  have hwords := hcontrast.words hheight hwidth hfits
  have hlength : 2 ≤ (wordsOf config t).length := by
    rw [← length_wordsOf config t] at hcells
    exact_mod_cast hcells
  obtain ⟨q, hq, hsane, hzero⟩ := exists_quantization config t
  refine ⟨q, hq, fun v σ index s ↦ ?_⟩
  obtain ⟨packed, params, hcall, hderive⟩ := exists_derives hheight hwidth ht.laid
    (hcontrast.room hheight hwidth hfits) (Contrast.common?_eq_none_iff.1 hcontrast.input)
    (Contrast.common?_eq_none_iff.1 hcontrast.weights) hwords hsane hzero (constantKernel σ v)
    s.outside
  have hcalls : Calls (Bench.ofKernel (constantKernel σ v)) config t q s.outside
      ((kernelCall config (repacked t packed) params).filled fun _ _ ↦ v) s.outside :=
    .intro hderive rfl
  have hkeeps := constantKernel_keepsSize σ v
  have hsaturates : AllWithin config t q
      ((kernelCall config (repacked t packed) params).filled fun _ _ ↦ v).buffers.output ↔
        q.Saturates config.qmin config.qmax (wordsOf config t) v.toNat := by
    rw [allWithin_filled_iff hcall]
    exact Affine.forall_near_iff_saturates hq hlength hwords (fun a ↦ abs_le_of_mem_wordsOf) hsane
      hzero hs.qmin_nonneg hbounds hs.qmax_le
  by_cases hdescribe : config.Describable
  · refine ⟨fun hnot ↦ ?_, fun h ↦ ?_⟩
    · obtain ⟨x, c, ⟨hx, hc⟩, hpast, hfirst⟩ := (allWithin_or_exists_first hsane hzero config t
        _).resolve_left fun h ↦ hnot (hsaturates.1 h)
      have hend : Ends (Bench.ofKernel (constantKernel σ v)) config t q index s.seed s.outside
          _ _ :=
        .tolerance hcalls rfl hdescribe hx hc hpast hfirst
      obtain ⟨history, hrun⟩ := hend.run hheight hwidth hfits hkeeps hq hsane hzero
      rw [raise_exceeded hdescribe hx hc _ (abs_observedAt_le hzero _ x c),
        observedAt_filled hcall v hx hc] at hrun
      exact ⟨x, c, _, hx, hc, hrun⟩
    · obtain ⟨m, hm, -⟩ := exists_metrics config q (t.word config.toSettings)
        ((kernelCall config (repacked t packed) params).filled fun _ _ ↦ v).buffers.output
      have hend : Ends (Bench.ofKernel (constantKernel σ v)) config t q index s.seed s.outside
          _ _ :=
        .passes hcalls rfl hdescribe (hsaturates.2 h)
          (fun _ hplace ↦ kept_filled hcall _ hplace) hm
      obtain ⟨history, hrun⟩ := hend.run hheight hwidth hfits hkeeps hq hsane hzero
      exact ⟨_, _, hrun, fun _ ↦ ⟨m, rfl⟩, fun h ↦ (h hdescribe).elim⟩
  · have hend : Ends (Bench.ofKernel (constantKernel σ v)) config t q index s.seed s.outside _ _ :=
      .undescribed hcalls rfl hdescribe
    obtain ⟨history, hrun⟩ := hend.run hheight hwidth hfits hkeeps hq hsane hzero
    have hcolumns := hs.width_pos
    have hlanes := hs.channels_pos
    refine ⟨fun _ ↦ ⟨0, 0, { s with history }, by omega, by omega, hrun.trans ?_⟩,
      fun _ ↦ ⟨_, _, hrun, fun h ↦ (hdescribe h).elim, fun _ ↦ rfl⟩⟩
    rw [if_neg fun h ↦ hdescribe h.describable]

def twinConfig : Config := ⟨{ channels := 2 }, by decide⟩

/-- A trial with the accumulators 5000 and 9001. The code of zero would lie below 0, and so all
expected values are 255. -/
def saturatedTrial : Trial where
  buffers := {
    input := #[0, 0, 0, 0, 0, 0, 0, 0, 127, 128]
    packed := #[127, 127]
    bias := #[5000, 9000]
    output := #[7, 7] }
  weights := #[127, 128]
  table := #[⟨8, 10⟩]

theorem saturatedTrial_drawn : saturatedTrial.Drawn twinConfig.toSettings where
  input_size := rfl
  weights_size := rfl
  packed_size := rfl
  bias_size := rfl
  output_size := rfl
  bias_range := Trial.bias_range_of_all (by decide)
  table_perm := .of_eq (by rw [Trial.rowViews_eq]; rfl)

theorem saturatedTrial_contrasting : Contrasting twinConfig.toSettings saturatedTrial where
  input := rfl
  weights := rfl
  accumulators := ⟨[[5000, 9001]], by decide +kernel, rfl⟩

theorem examine_constantKernel_saturatedTrial :
    (∃ (x c : Nat) (e : Double) (o : Int) (s' : Session Unit),
      (examine (Bench.ofKernel (constantKernel Unit 254)) twinConfig 0 saturatedTrial).run.run
        { seed := 9, stream := .ofSeed 9, outside := () } =
          (.error (.failure ⟨.toleranceExceeded x c e o Affine.tolerance, some 0, some 9⟩), s')) ∧
      ∃ (m : Metrics) (s' : Session Unit),
        (examine (Bench.ofKernel (constantKernel Unit 255)) twinConfig 0 saturatedTrial).run.run
          { seed := 9, stream := .ofSeed 9, outside := () } = (.ok m, s') := by
  obtain ⟨q, hq, hconstant⟩ := examine_constantKernel (by decide) (by decide) (by decide)
    (by decide) saturatedTrial_drawn saturatedTrial_contrasting
  have hwords : wordsOf twinConfig saturatedTrial = [5000, 9001] := by decide +kernel
  rw [hwords] at hq hconstant
  obtain rfl : Affine.ofRange 5000 9001 = q := Except.ok.inj hq
  constructor
  · obtain ⟨x, c, s', -, -, hrun⟩ := (hconstant 254 0
      { seed := 9, stream := .ofSeed 9, outside := () }).1 (by decide +kernel)
    rw [if_pos (by decide +kernel)] at hrun
    exact ⟨x, c, _, _, s', hrun⟩
  · obtain ⟨r, s', hrun, hreturns, -⟩ := (hconstant 255 0 _).2 (by decide +kernel)
    obtain ⟨m, rfl⟩ := hreturns (by decide +kernel)
    exact ⟨m, s', hrun⟩

/-- A kernel that stores 255 whatever it is asked for passes the saturated trial. -/
theorem examine_saturatedTrial :
    saturatedTrial.Drawn twinConfig.toSettings ∧
      Contrasting twinConfig.toSettings saturatedTrial ∧
      (1 ≤ twinConfig.kernelHeight ∧ 1 ≤ twinConfig.kernelWidth) ∧
      twinConfig.qmin < twinConfig.qmax ∧ 2 ≤ twinConfig.width * twinConfig.channels ∧
      ((examine (Bench.ofKernel (constantKernel Unit 255)) twinConfig 0 saturatedTrial).run.run
        { seed := 9, stream := .ofSeed 9, outside := () }).1.isOk = true :=
  ⟨saturatedTrial_drawn, saturatedTrial_contrasting, by decide, by decide, by decide,
    by decide +kernel⟩

end Depthwise.Session
