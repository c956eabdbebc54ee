import Depthwise.Config
import Depthwise.Proofs.Weights
import Mathlib.Data.Nat.Bitwise

namespace Depthwise

namespace Bitwise

/-- A number that shares no bit with the one below it is a power of two. -/
theorem eq_two_pow_of_conjunction {n : Int} (hn : n ≠ 0) (h : conjunction n (n - 1) = 0) :
    ∃ k : Nat, n = 2 ^ k := by
  cases n with
  | ofNat m =>
    have hm : m ≠ 0 := by rintro rfl; exact hn rfl
    have hpred : (Int.ofNat m - 1 : Int) = ((m - 1 : Nat) : Int) := by
      rw [Nat.cast_sub (by omega)]
      rfl
    rw [hpred] at h
    have hand : m &&& (m - 1) = 0 := Int.ofNat_inj.1 h
    obtain ⟨k, rfl⟩ := (Nat.and_sub_one_eq_zero_iff_isPowerOfTwo hm).1 hand
    exact ⟨k, Nat.cast_pow 2 k⟩
  | negSucc m =>
    have hpred : (Int.negSucc m - 1 : Int) = Int.negSucc (m + 1) := by omega
    rw [hpred] at h
    exact absurd h (Int.negSucc_ne_zero _)

theorem one_le_of_two_pow {n : Int} (h : ∃ k : Nat, n = 2 ^ k) : 1 ≤ n := by
  obtain ⟨k, rfl⟩ := h
  exact Int.pow_pos (by decide)

theorem conjunction_two_pow (k : Nat) : conjunction (2 ^ k) (2 ^ k - 1) = 0 := by
  have hmask : (2 ^ k - 1 : Int) = ((2 ^ k - 1 : Nat) : Int) := by
    push_cast [Nat.two_pow_pos k]
    rfl
  have hpow : (2 ^ k : Int) = ((2 ^ k : Nat) : Int) := by push_cast; rfl
  rw [hmask, hpow, conjunction_natCast, Nat.and_two_pow_sub_one_eq_mod, Nat.mod_self]
  rfl

theorem conjunction_not_mask (m k : Nat) :
    conjunction m (~~~(2 ^ k - 1)) = (m / 2 ^ k * 2 ^ k : Nat) := by
  have hpos := Nat.two_pow_pos k
  have hmask : (2 ^ k - 1 : Int) = ((2 ^ k - 1 : Nat) : Int) := by push_cast [hpos]; rfl
  have hbits : without m (2 ^ k - 1) = m / 2 ^ k * 2 ^ k := by
    rw [← Nat.shiftRight_eq_div_pow, ← Nat.shiftLeft_eq]
    apply Nat.eq_of_testBit_eq
    intro i
    rw [without, Nat.testBit_xor, Nat.testBit_and, Nat.testBit_two_pow_sub_one,
      Nat.testBit_shiftLeft, Nat.testBit_shiftRight]
    by_cases hi : k ≤ i
    · simp [hi, show ¬ i < k by omega, Nat.add_sub_cancel' hi]
    · simp [hi, show i < k by omega]
  rw [hmask, ← hbits]
  rfl

end Bitwise

/-- Settings as the rules want them. -/
structure Settings.Regular (s : Settings) : Prop where
  width_pos : 1 ≤ s.width
  subsampling_pos : 1 ≤ s.subsampling
  channels_pos : 1 ≤ s.channels
  tile_eq_pow : ∃ k : Nat, s.tile = 2 ^ k
  kernelHeight_ne : s.kernelHeight ≠ 0
  kernelWidth_ne : s.kernelWidth ≠ 0
  inputStride_room : s.inputStride = 0 ∨ s.channels ≤ s.inputStride
  outputStride_room : s.outputStride = 0 ∨ s.channels ≤ s.outputStride
  qmin_nonneg : 0 ≤ s.qmin
  qmin_le_qmax : s.qmin ≤ s.qmax
  qmax_le : s.qmax ≤ 255
  iterations_nonneg : 0 ≤ s.iterations

namespace Settings

theorem kernelSize_pos {s : Settings} (hheight : 1 ≤ s.kernelHeight) (hwidth : 1 ≤ s.kernelWidth) :
    1 ≤ s.kernelSize := by
  rw [kernelSize]
  nlinarith

/-- Rounding up by a mask gives whole tiles. -/
theorem packedChannels_eq {s : Settings} (hc : 1 ≤ s.channels) (ht : ∃ k : Nat, s.tile = 2 ^ k) :
    s.packedChannels = Weights.tileCount s.tile s.channels * s.tile := by
  obtain ⟨k, hk⟩ := ht
  have hpos := Nat.two_pow_pos k
  obtain ⟨channels, hchannels⟩ := Int.eq_ofNat_of_zero_le (zero_le_one.trans hc)
  have hcast : ((2 : Int) ^ k) = ((2 ^ k : Nat) : Int) := by push_cast; rfl
  have hsum : s.channels + s.tile - 1 = ((channels + 2 ^ k - 1 : Nat) : Int) := by
    rw [hchannels, hk, hcast]
    omega
  rw [packedChannels, hsum, hk, Bitwise.conjunction_not_mask, hchannels, hcast,
    Weights.tileCount_natCast (by omega), Weights.tiles]
  push_cast
  rfl

theorem regular_of_flaw? {s : Settings} (h : s.flaw? = none) : s.Regular := by
  simp only [flaw?, ite_eq_iff, reduceCtorEq, and_false, false_or, and_true] at h
  obtain ⟨hwidth, hsub, hchannels, htile, hpow, hheight, hkernel, hin, hout, hqmin, hqmax, hempty,
    hiter⟩ := h
  exact ⟨by omega, by omega, by omega,
    Bitwise.eq_two_pow_of_conjunction htile (not_not.1 hpow), hheight, hkernel, by omega, by omega,
    by omega, by omega, by omega, by omega⟩

variable {s : Settings} (h : s.Regular)

include h

theorem flaw?_of_regular : s.flaw? = none := by
  obtain ⟨hwidth, hsub, hchannels, ⟨k, htile⟩, hheight, hkernel, hin, hout, hqmin, hempty, hqmax,
    hiter⟩ := h
  have hpow : Bitwise.conjunction s.tile (s.tile - 1) = 0 := by
    rw [htile, Bitwise.conjunction_two_pow]
  have htile_ne : s.tile ≠ 0 := by
    rw [htile]
    exact (Int.pow_pos (by decide)).ne'
  simp only [flaw?, ite_eq_iff, reduceCtorEq, and_false, false_or, and_true]
  exact ⟨by omega, by omega, by omega, htile_ne, not_not.2 hpow, hheight, hkernel, by omega,
    by omega, by omega, by omega, by omega, by omega⟩

omit h in
theorem flaw?_eq_none_iff : s.flaw? = none ↔ s.Regular := ⟨regular_of_flaw?, flaw?_of_regular⟩

namespace Regular

theorem tile_pos : 1 ≤ s.tile := Bitwise.one_le_of_two_pow h.tile_eq_pow

theorem packedChannels_eq :
    s.packedChannels = Weights.tileCount s.tile s.channels * s.tile :=
  Settings.packedChannels_eq h.channels_pos h.tile_eq_pow

theorem channels_le_packedChannels : s.channels ≤ s.packedChannels := by
  have hc := h.channels_pos
  have ht := h.tile_pos
  obtain ⟨channels, hchannels⟩ := Int.eq_ofNat_of_zero_le (zero_le_one.trans hc)
  obtain ⟨tile, htile⟩ := Int.eq_ofNat_of_zero_le (zero_le_one.trans ht)
  rw [h.packedChannels_eq, hchannels, htile, Weights.tileCount_natCast (by omega)]
  exact_mod_cast Weights.le_tiles_mul (by omega)

theorem channels_le_inputStride : s.channels ≤ s.effectiveInputStride := by
  have := h.inputStride_room
  rw [effectiveInputStride]
  split_ifs <;> omega

theorem channels_le_outputStride : s.channels ≤ s.effectiveOutputStride := by
  have := h.outputStride_room
  rw [effectiveOutputStride]
  split_ifs <;> omega

variable (hheight : 1 ≤ s.kernelHeight)

include hheight

theorem tapStep_pos : 1 ≤ s.tapStep := by
  have := h.subsampling_pos
  rw [tapStep]
  nlinarith

theorem tap_lt_tableSize {x : Nat} (hx : x < s.width.toNat) :
    x * s.tapStep + s.kernelSize ≤ s.tableSize := by
  have hstep := h.tapStep_pos hheight
  have hle : (x : Int) ≤ s.width - 1 := by omega
  rw [tableSize]
  nlinarith

end Regular

end Settings

theorem Config.regular (c : Config) : c.Regular := Settings.regular_of_flaw? c.sound

end Depthwise
