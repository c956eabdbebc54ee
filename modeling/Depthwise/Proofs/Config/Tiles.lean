import Depthwise.Proofs.Config
import Depthwise.Proofs.Kernel.Vector
import Depthwise.Proofs.Weights.Packing
import Mathlib.Data.Int.Bitwise
import Mathlib.Order.Bounds.Basic

namespace Depthwise

namespace Bitwise

theorem without_eq_ldiff (m n : Nat) : without m n = m.ldiff n := by
  apply Nat.eq_of_testBit_eq
  intro i
  rw [without, Nat.testBit_xor, Nat.testBit_and, Nat.testBit_ldiff]
  cases m.testBit i <;> cases n.testBit i <;> rfl

theorem conjunction_eq_land (a b : Int) : conjunction a b = a.land b := by
  cases a <;> cases b <;> simp only [conjunction, Int.land, without_eq_ldiff, Int.ofNat_eq_natCast]

/-- The conjunction is taken at every place of the two's complement. -/
theorem testBit_conjunction (a b : Int) (i : Nat) :
    (conjunction a b).testBit i = (a.testBit i && b.testBit i) := by
  rw [conjunction_eq_land, Int.testBit_land]

theorem conjunction_pred_eq_zero_iff (n : Int) :
    n ≠ 0 ∧ conjunction n (n - 1) = 0 ↔ ∃ k : Nat, n = 2 ^ k := by
  constructor
  · rintro ⟨hn, hzero⟩
    exact eq_two_pow_of_conjunction hn hzero
  · intro h
    have hpos := one_le_of_two_pow h
    obtain ⟨k, rfl⟩ := h
    exact ⟨by omega, conjunction_two_pow k⟩

end Bitwise

/-- Whole tiles hold the channels, and fewer do not. -/
theorem Weights.isLeast_tileCount_mul {tile : Int} (htile : 1 ≤ tile) (channels : Int) :
    IsLeast {m | tile ∣ m ∧ channels ≤ m} (tileCount tile channels * tile) := by
  rw [tileCount, Int.fdiv_eq_ediv_of_nonneg _ (zero_le_one.trans htile)]
  refine ⟨⟨dvd_mul_left _ _, ?_⟩, ?_⟩
  · have hlt := Int.lt_ediv_add_one_mul_self (channels + tile - 1) (show 0 < tile by omega)
    rw [add_mul, one_mul] at hlt
    omega
  · rintro _ ⟨⟨q, rfl⟩, hle⟩
    rw [mul_comm]
    refine mul_le_mul_of_nonneg_left ?_ (by omega)
    refine Int.lt_add_one_iff.1 ((Int.ediv_lt_iff_lt_mul (by omega)).2 ?_)
    rw [add_mul, one_mul, mul_comm q]
    omega

namespace Settings

open Weights

/-- A packed buffer of `size` bytes is all tiles: the packer and the vector kernel see it whole,
and both refuse a shorter one. -/
structure Tiled (s : Settings) (size : Nat) : Prop where
  length_eq : tileCount s.tile s.channels * s.kernelSize * s.tile = size
  extent_eq : Layout.extent s.channels s.kernelSize s.tile size = size
  layout_eq : 1 ≤ s.kernelSize → Layout.of? s.channels s.kernelSize s.tile size =
    some ⟨(tileCount s.tile s.channels).toNat, s.kernelSize.toNat, s.tile.toNat⟩
  pack_ok : 1 ≤ s.kernelSize → ∀ weights packed : Bytes,
    s.channels * s.kernelSize ≤ weights.size → packed.size = size →
      ∃ result, pack s.channels s.kernelSize s.tile weights packed = .ok result
  pack_short : ∀ weights packed : Bytes, packed.size < size →
    pack s.channels s.kernelSize s.tile weights packed = .error .shortBuffer
  weightGrid_ok : 1 ≤ s.kernelSize → ∀ call : Kernel.Call, call.channels = s.channels →
    call.buffers.packed.size = size →
      ∃ grid, Kernel.Vector.weightGrid s.kernelSize s.tile call = .ok grid ∧
        grid.rows = s.kernelSize ∧ grid.lanes = s.channels
  weightGrid_short : ∀ call : Kernel.Call, call.channels = s.channels →
    call.buffers.packed.size < size →
      Kernel.Vector.weightGrid s.kernelSize s.tile call = .error (.fault .unusableValue)

variable {s : Settings}

theorem tiled_of_natCast {channels kernelSize tile : Nat} (hchannels : s.channels = channels)
    (hks : s.kernelSize = kernelSize) (ht : s.tile = tile) (hc : 0 < channels) (htile : 0 < tile) :
    s.Tiled (tiles tile channels * kernelSize * tile) := by
  have hcount : tileCount s.tile s.channels = tiles tile channels := by
    rw [hchannels, ht, tileCount_natCast (by omega)]
  have hlength : tileCount s.tile s.channels * s.kernelSize * s.tile =
      (tiles tile channels * kernelSize * tile : Nat) := by
    rw [hcount, hks, ht]
    push_cast
    rfl
  refine ⟨hlength, ?_, fun hpos ↦ ?_, fun hpos weights packed hweights hpacked ↦ ?_,
    fun weights packed hshort ↦ ?_, fun hpos call hcall hpacked ↦ ?_, fun call hcall hshort ↦ ?_⟩
  · rw [Layout.extent, hlength]
    exact Buffer.bound_of_le le_rfl
  · have hspan : ¬ Excessive channels kernelSize tile := not_excessive_of_pos (by omega) hc
    rw [hcount, hchannels, hks, ht]
    exact (layout_eq htile hspan le_rfl).2
  · have hspan : ¬ Excessive channels kernelSize tile := not_excessive_of_pos (by omega) hc
    rw [hchannels, hks] at hweights
    rw [hchannels, hks, ht]
    exact ⟨_, pack_eq htile (by exact_mod_cast hweights) hpacked.ge hspan⟩
  · rw [hchannels, hks, ht]
    exact pack_of_accept_error (accept_of_short htile (.inr hshort))
  · have hcall' : call.channels.toNat = channels := by omega
    have hroom : tiles tile call.channels.toNat * kernelSize * tile ≤ call.buffers.packed.size := by
      rw [hcall']
      exact hpacked.ge
    obtain ⟨grid, hgrid, hrows, hlanes, -⟩ :=
      Kernel.Vector.weightGrid_ok (by omega) htile (by omega) hroom
    rw [hks, ht, hgrid]
    refine ⟨grid, rfl, by rw [hrows], ?_⟩
    rw [hlanes, hcall', hchannels]
  · have hcall' : call.channels.toNat = channels := by omega
    rw [hks, ht]
    exact Kernel.Vector.weightGrid_error htile (by omega) (by rw [hcall']; exact hshort)

/-- A buffer of as many bytes as taps and masked channels give is all tiles. -/
theorem tiled_of_size (hc : 1 ≤ s.channels) (ht : ∃ k : Nat, s.tile = 2 ^ k) {size : Nat}
    (hsize : size = s.kernelSize * s.packedChannels) : s.Tiled size := by
  have hpacked := packedChannels_eq hc ht
  have hone := Bitwise.one_le_of_two_pow ht
  have hle : s.channels ≤ s.packedChannels := by
    rw [hpacked]
    exact (isLeast_tileCount_mul hone s.channels).1.2
  -- there is no buffer of a negative size
  have hks : 0 ≤ s.kernelSize := by
    by_contra hneg
    have := Int.mul_neg_of_neg_of_pos (not_le.1 hneg) (show 0 < s.packedChannels by omega)
    omega
  obtain ⟨channels, hchannels⟩ := Int.eq_ofNat_of_zero_le (zero_le_one.trans hc)
  obtain ⟨kernelSize, hks⟩ := Int.eq_ofNat_of_zero_le hks
  obtain ⟨tile, htile⟩ := Int.eq_ofNat_of_zero_le (zero_le_one.trans hone)
  have hsize' : (size : Int) = (tiles tile channels * kernelSize * tile : Nat) := by
    rw [hsize, hpacked, hchannels, htile, hks, tileCount_natCast (by omega)]
    push_cast
    ring
  rw [Int.ofNat_inj.1 hsize']
  exact tiled_of_natCast hchannels hks htile (by omega) (by omega)

/-- A configuration is refused for its tile width exactly when that is no power of two. -/
theorem flaw?_tile_iff (hwidth : 1 ≤ s.width) (hsub : 1 ≤ s.subsampling) (hc : 1 ≤ s.channels) :
    s.flaw? = some .tileZero ∨ s.flaw? = some (.tileNotPowerOfTwo s.tile) ↔
      ¬ ∃ k : Nat, s.tile = 2 ^ k := by
  rw [← Bitwise.conjunction_pred_eq_zero_iff, flaw?, if_neg (by omega), if_neg (by omega),
    if_neg (by omega)]
  by_cases hzero : s.tile = 0
  · rw [if_pos hzero]
    exact iff_of_true (.inl rfl) fun h ↦ h.1 hzero
  rw [if_neg hzero]
  by_cases hbits : Bitwise.conjunction s.tile (s.tile - 1) = 0
  · rw [if_neg (not_not.2 hbits)]
    refine iff_of_false ?_ (not_not.2 ⟨hzero, hbits⟩)
    split_ifs <;> simp
  · rw [if_pos hbits]
    exact iff_of_true (.inr rfl) fun h ↦ hbits h.2

/-- The test for a single bit, in two's complement, is passed by the powers of two and by nothing
else, and all other widths are refused for it. For these widths the masked channel count is the
least multiple of the width that holds the channels, and the width times the tile count of the
packer and the vector kernel, so a packed buffer sized by it is all tiles. -/
theorem packedChannels_tiled :
    (∀ a b : Int, ∀ i : Nat,
      (Bitwise.conjunction a b).testBit i = (a.testBit i && b.testBit i)) ∧
    (∀ n : Int, n ≠ 0 ∧ Bitwise.conjunction n (n - 1) = 0 ↔ ∃ k : Nat, n = 2 ^ k) ∧
    (∀ s : Settings, 1 ≤ s.width → 1 ≤ s.subsampling → 1 ≤ s.channels →
      (s.flaw? = some .tileZero ∨ s.flaw? = some (.tileNotPowerOfTwo s.tile) ↔
        ¬ ∃ k : Nat, s.tile = 2 ^ k)) ∧
    ∀ s : Settings, s.tile ≠ 0 ∧ Bitwise.conjunction s.tile (s.tile - 1) = 0 → 1 ≤ s.channels →
      IsLeast {m | s.tile ∣ m ∧ s.channels ≤ m} s.packedChannels ∧
      s.packedChannels = s.tile * tileCount s.tile s.channels ∧
      ∀ size : Nat, size = s.kernelSize * s.packedChannels → s.Tiled size := by
  refine ⟨Bitwise.testBit_conjunction, Bitwise.conjunction_pred_eq_zero_iff,
    fun s ↦ flaw?_tile_iff, fun s hs hc ↦ ?_⟩
  have ht := (Bitwise.conjunction_pred_eq_zero_iff s.tile).1 hs
  refine ⟨?_, ?_, fun size hsize ↦ tiled_of_size hc ht hsize⟩
  · rw [packedChannels_eq hc ht]
    exact isLeast_tileCount_mul (Bitwise.one_le_of_two_pow ht) s.channels
  · rw [packedChannels_eq hc ht, mul_comm]

def partialTiles : Settings := { channels := 5, tile := 4, kernelHeight := 3 }

theorem packedChannels_tiled_partial :
    partialTiles.packedChannels = 8 ∧
      IsLeast {m : Int | 4 ∣ m ∧ 5 ≤ m} partialTiles.packedChannels ∧
      partialTiles.packedChannels = 4 * tileCount 4 5 ∧ partialTiles.Tiled 24 ∧
      ({ partialTiles with tile := -4 } : Settings).flaw? = some (.tileNotPowerOfTwo (-4)) := by
  obtain ⟨-, -, -, htiled⟩ := packedChannels_tiled
  obtain ⟨hleast, hcount, hsize⟩ := htiled partialTiles (by decide) (by decide)
  exact ⟨by decide, hleast, hcount, hsize 24 (by decide), by decide⟩

end Settings

end Depthwise
