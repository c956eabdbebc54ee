import Depthwise.Proofs.Convolution

namespace Depthwise

namespace Trial

variable (s : Settings) (table : Array View)

/-- The trial whose samples and weights are as far above their zero points as they can be. -/
def loudest : Trial where
  buffers := {
    input := Array.replicate s.inputSize.toNat 255
    packed := Array.replicate (s.kernelSize * s.packedChannels).toNat 127
    bias := Array.replicate s.packedChannels.toNat 0
    output := Array.replicate s.outputSize.toNat 0 }
  weights := Array.replicate (s.channels * s.kernelSize).toNat 255
  table

variable {s table} (hs : s.Regular) (hheight : 1 ≤ s.kernelHeight) (hwidth : 1 ≤ s.kernelWidth)
  (htable : table.toList.Perm (rowViews s s.inputSize.toNat).toList)

include hs hheight hwidth

theorem inputSize_nonneg : 0 ≤ s.inputSize := by
  have htable := tableSize_pos hs hheight hwidth
  have hchannels := hs.channels_pos
  have hstride := hs.channels_le_inputStride
  have hrows : 0 ≤ (s.tableSize - 1) * s.effectiveInputStride :=
    mul_nonneg (by omega) (by omega)
  have hguard : Settings.guardSize = 8 := rfl
  rw [Settings.inputSize]
  omega

include htable

theorem loudest_drawn : (loudest s table).Drawn s := by
  have hks := Settings.kernelSize_pos hheight hwidth
  have hcolumns := hs.width_pos
  have hchannels := hs.channels_pos
  have hpacked := hs.channels_le_packedChannels
  have hstride := hs.channels_le_outputStride
  refine ⟨?_, ?_, ?_, ?_, ?_, fun b hb ↦ ?_, ?_⟩
  · rw [loudest, Array.size_replicate, Int.toNat_of_nonneg (inputSize_nonneg hs hheight hwidth)]
  · rw [loudest, Array.size_replicate, Int.toNat_of_nonneg (mul_nonneg (by omega) (by omega))]
  · rw [loudest, Array.size_replicate, Int.toNat_of_nonneg (mul_nonneg (by omega) (by omega))]
  · rw [loudest, Array.size_replicate, Int.toNat_of_nonneg (by omega)]
  · have hrows : 0 ≤ (s.width - 1) * s.effectiveOutputStride := mul_nonneg (by omega) (by omega)
    rw [loudest, Array.size_replicate, Settings.outputSize, Int.toNat_of_nonneg (by omega)]
  · obtain rfl := Array.eq_of_mem_replicate hb
    decide
  · rwa [loudest, Array.size_replicate]

theorem sample_loudest {x k c : Nat} (hx : x < s.width.toNat) (hk : k < s.kernelSize.toNat)
    (hc : c < s.channels.toNat) : (loudest s table).sample s x k c = 255 := by
  have hfits := (loudest_drawn hs hheight hwidth htable).fits hs hheight hwidth
  have hstep := hs.tapStep_pos hheight
  have hlast := hs.tap_lt_tableSize hheight hx
  have hsize := hfits.table_size
  have hcast : ((x * s.tapStep.toNat + k : Nat) : Int) = x * s.tapStep + k := by
    rw [Nat.cast_add, Nat.cast_mul, Int.toNat_of_nonneg (by omega)]
  have hlt : x * s.tapStep.toNat + k < (loudest s table).table.size := by omega
  have hroom := hfits.view_room _ (Array.getElem_mem hlt)
  have hlane : c < (((loudest s table).table[x * s.tapStep.toNat + k]).read
      (loudest s table).buffers.input).size := by omega
  rw [sample, ← Array.getElem_eq_getD (h := hlt), ← Array.getElem_eq_getD (h := hlane)]
  simp [View.read, loudest]

theorem accumulator_loudest {x c : Nat} (hx : x < s.width.toNat) (hc : c < s.channels.toNat) :
    (loudest s table).accumulator s x c = s.kernelSize * 0x4000 := by
  have hks := Settings.kernelSize_pos hheight hwidth
  have hchannels := hs.channels_pos
  have hterm : ∀ k ∈ Finset.range s.kernelSize.toNat,
      Convolution.product ((loudest s table).sample s x k c)
        ((loudest s table).weights.getD (c * s.kernelSize.toNat + k) 0) = 0x4000 := by
    intro k hk
    have hk := Finset.mem_range.1 hk
    have hplace : c * s.kernelSize.toNat + k < (s.channels * s.kernelSize).toNat := by
      have hnext := Nat.mul_le_mul_right s.kernelSize.toNat (show c + 1 ≤ s.channels.toNat from hc)
      rw [Nat.succ_mul] at hnext
      rw [Int.toNat_mul (by omega) (by omega)]
      omega
    have hweight : (loudest s table).weights.getD (c * s.kernelSize.toNat + k) 0 = 255 := by
      simp [loudest, hplace]
    rw [sample_loudest hs hheight hwidth htable hx hk hc, hweight]
    rfl
  have hbias : ((loudest s table).buffers.bias.getD c 0).toInt = 0 := by
    have hpacked := hs.channels_le_packedChannels
    simp [loudest, show c < s.packedChannels.toNat by omega]
  rw [accumulator, hbias, Finset.sum_congr rfl hterm, Finset.sum_const, Finset.card_range, zero_add,
    nsmul_eq_mul, Int.toNat_of_nonneg (by omega)]

end Trial

namespace Convolution

/-- Where the samples have room, up to 131071 taps, any samples and weights and any bias within the
limit, the convolution yields the exact accumulators. From 131072 taps on there are data, whatever
order the table has, for which it yields none of them. Samples without room are refused. -/
theorem accumulators_exact (config : Config) (hheight : 1 ≤ config.kernelHeight)
    (hwidth : 1 ≤ config.kernelWidth) :
    (Roomy config.toSettings →
      (config.kernelSize ≤ 131071 → ∀ t : Trial, t.Fits config.toSettings →
        (∀ b ∈ t.buffers.bias, -Trial.biasLimit ≤ b.toInt ∧ b.toInt ≤ Trial.biasLimit) →
        ∃ accs, accumulators config.toSettings t = .ok accs ∧
          accs.map (·.map (·.toInt)) =
            matrix config.width.toNat config.channels.toNat (t.accumulator config.toSettings)) ∧
      (131072 ≤ config.kernelSize → ∀ table : Array View,
        table.toList.Perm (Trial.rowViews config.toSettings config.inputSize.toNat).toList →
        ∃ t : Trial, t.table = table ∧ t.Drawn config.toSettings ∧
          ∃ accs, accumulators config.toSettings t = .ok accs ∧
            ∀ x < config.width.toNat, ∀ c < config.channels.toNat, ∃ acc,
              accs[x]?.bind (·[c]?) = some acc ∧
                acc.toInt ≠ t.accumulator config.toSettings x c)) ∧
    (¬ Roomy config.toSettings → ∀ t : Trial, t.Fits config.toSettings →
      accumulators config.toSettings t = .error (.fault (lack config.toSettings))) := by
  have hs := config.regular
  refine ⟨fun hroom ↦ ⟨?_, ?_⟩, fun hroom t ht ↦ accumulators_lack hs hheight hwidth ht hroom⟩
  · intro hks t ht hbias
    obtain ⟨accs, hrun, hwords⟩ := accumulators_words hs hheight hwidth ht hroom
    refine ⟨accs, hrun, hwords.trans (matrix_congr fun x _ c _ ↦ ?_)⟩
    exact Trial.word_eq_accumulator (fitsLane_of_bias hbias hks x c)
  · intro hks table htable
    have hdrawn := Trial.loudest_drawn hs hheight hwidth htable
    have hrun := accumulators_ok hs hheight hwidth (hdrawn.fits hs hheight hwidth) hroom
    refine ⟨_, rfl, hdrawn, _, hrun, fun x hx c hc ↦ ⟨_, getElem?_matrix _ hx hc, ?_⟩⟩
    have hsum := Trial.accumulator_loudest hs hheight hwidth htable hx hc
    have hword := (Int32.ofInt ((Trial.loudest config.toSettings table).accumulator
      config.toSettings x c)).toInt_lt
    omega

def pairConfig : Config := ⟨{ kernelWidth := 2 }, by decide⟩

def pairTrial : Trial where
  buffers := {
    input := #[0, 0, 0, 0, 0, 0, 0, 0, 255, 0]
    packed := #[127, 127]
    bias := #[-10000]
    output := #[0] }
  weights := #[0, 255]
  table := #[⟨9, 10⟩, ⟨8, 10⟩]

def wideConfig : Config := ⟨{ kernelHeight := 256, kernelWidth := 512 }, by decide⟩

def endlessConfig : Config := ⟨{ width := 0x8000000000000000 }, by decide⟩

def boundlessConfig : Config := ⟨{ kernelWidth := 0x8000000000000000 }, by decide⟩

theorem accumulators_exact_at_limits :
    (∃ accs, accumulators pairConfig.toSettings pairTrial = .ok accs ∧
      accs.map (·.map (·.toInt)) = matrix 1 1 (pairTrial.accumulator pairConfig.toSettings)) ∧
    (∃ t : Trial, t.Drawn wideConfig.toSettings ∧
      ∃ accs, accumulators wideConfig.toSettings t = .ok accs ∧ ∃ acc,
        accs[0]?.bind (·[0]?) = some acc ∧ acc.toInt ≠ t.accumulator wideConfig.toSettings 0 0) ∧
    ∃ t : Trial, t.Drawn boundlessConfig.toSettings ∧
      accumulators boundlessConfig.toSettings t = .error (.fault .unusableValue) := by
  have hfits : pairTrial.Fits pairConfig.toSettings := by
    refine ⟨by decide, by decide, by decide, by decide, by decide, ?_⟩
    decide
  refine ⟨?_, ?_, ?_⟩
  · exact ((accumulators_exact pairConfig (by decide) (by decide)).1 (by decide)).1 (by decide)
      pairTrial hfits (Trial.bias_range_of_all (by decide))
  · obtain ⟨t, -, hdrawn, accs, hrun, hwrong⟩ :=
      ((accumulators_exact wideConfig (by decide) (by decide)).1 (by decide)).2 (by decide) _
        (.refl _)
    exact ⟨t, hdrawn, accs, hrun, hwrong 0 (by decide) 0 (by decide)⟩
  · have hdrawn := Trial.loudest_drawn boundlessConfig.regular (by decide) (by decide) (.refl _)
    exact ⟨_, hdrawn, (accumulators_exact boundlessConfig (by decide) (by decide)).2 (by decide) _
      (hdrawn.fits boundlessConfig.regular (by decide) (by decide))⟩

/-- With one tap and too many positions, and with too many taps, nothing is computed. -/
theorem accumulators_without_room :
    (endlessConfig.kernelSize ≤ 131071 ∧ ∃ t : Trial, t.Drawn endlessConfig.toSettings ∧
      accumulators endlessConfig.toSettings t = .error (.fault .unusableValue)) ∧
    131072 ≤ boundlessConfig.kernelSize ∧ ∀ t : Trial, t.Drawn boundlessConfig.toSettings →
      accumulators boundlessConfig.toSettings t = .error (.fault .unusableValue) := by
  refine ⟨⟨by decide, _, Trial.loudest_drawn endlessConfig.regular (by decide) (by decide)
    (.refl _), accumulators_of_lt (by decide) _⟩, by decide, fun t _ ↦ ?_⟩
  exact accumulators_of_lt (by decide) t

end Convolution

end Depthwise
