import Depthwise.Proofs.Binary.Values

namespace Depthwise.Binary

variable {F G : Format}

/-- A format that reaches well past the magnitudes from `2 ^ -64` to `2 ^ 64`. -/
class Format.Wide (F : Format) : Prop extends F.Proper where
  small : F.minExponent + (F.precision - 1 : Nat) ≤ -64
  large : 64 < F.maxExponent

instance : Format.single.Wide := ⟨by decide, by decide⟩

instance : Format.double.Wide := ⟨by decide, by decide⟩

def Moderate (x : Rat) : Prop := x = 0 ∨ 1 / 2 ^ 64 ≤ |x| ∧ |x| ≤ 2 ^ 64

variable [F.Wide] {x : Rat}

theorem Moderate.of_bounds (hlow : 1 / 2 ^ 64 ≤ |x|) (hhigh : |x| ≤ 2 ^ 64) : Moderate x :=
  .inr ⟨hlow, hhigh⟩

theorem lt_limit_of_le (h : |x| ≤ 2 ^ 64) : |x| < F.limit := by
  have hlarge := Format.Wide.large (F := F)
  refine h.trans_lt ?_
  rw [Format.limit, ← zpow_natCast]
  exact zpow_lt_zpow_right₀ one_lt_two (by push_cast; omega)

theorem Moderate.lt_limit (h : Moderate x) : |x| < F.limit := by
  rcases h with rfl | ⟨-, h⟩
  · rw [abs_zero]
    exact zpow_pos two_pos _
  · exact lt_limit_of_le h

theorem Moderate.abs_round_sub_le (h : Moderate x) :
    |F.round x - x| ≤ |x| / 2 ^ F.precision := by
  have hsmall := Format.Wide.small (F := F)
  rw [div_eq_mul_inv, ← zpow_natCast, ← zpow_neg]
  refine Format.abs_round_sub_le (h.imp_right fun h ↦ le_trans ?_ h.1)
  rw [Format.leastNormal, one_div, ← zpow_natCast, ← zpow_neg]
  exact zpow_le_zpow_right₀ one_le_two (by push_cast; omega)

theorem div_error {x y : Binary F} (hx : x.isFinite = true) (hy : y.isFinite = true)
    (hne : y.toRat ≠ 0) (h : Moderate (x.toRat / y.toRat)) :
    (x / y).isFinite = true ∧
      |(x / y).toRat - x.toRat / y.toRat| ≤ |x.toRat / y.toRat| / 2 ^ F.precision := by
  obtain ⟨hfin, hval⟩ := div_spec hx hy hne h.lt_limit
  rw [hval]
  exact ⟨hfin, h.abs_round_sub_le⟩

/-- A difference can be as small as it likes, so its error is not only in proportion to it. -/
theorem sub_error {x y : Binary F} (hx : x.isFinite = true) (hy : y.isFinite = true)
    (h : |x.toRat - y.toRat| ≤ 2 ^ 64) :
    (x - y).isFinite = true ∧ |(x - y).toRat - (x.toRat - y.toRat)| ≤
      |x.toRat - y.toRat| / 2 ^ F.precision + 1 / 2 ^ 64 := by
  have hsmall := Format.Wide.small (F := F)
  obtain ⟨hfin, hval⟩ := sub_spec hx hy (lt_limit_of_le h)
  have hunit : (2 : Rat) ^ F.minExponent ≤ 1 / 2 ^ 64 := by
    rw [one_div, ← zpow_natCast, ← zpow_neg]
    exact zpow_le_zpow_right₀ one_le_two (by push_cast; omega)
  have hpos : (0 : Rat) < 2 ^ F.minExponent := zpow_pos two_pos _
  have herr := Format.abs_round_sub_le_add (F := F) (x.toRat - y.toRat)
  rw [zpow_neg, zpow_natCast, ← div_eq_mul_inv] at herr
  rw [hval]
  exact ⟨hfin, by linarith⟩

theorem ofRat_error (h : Moderate x) : (ofRat x : Binary F).isFinite = true ∧
    |(ofRat x : Binary F).toRat - x| ≤ |x| / 2 ^ F.precision := by
  obtain ⟨hfin, hval⟩ := ofRat_spec (F := F) h.lt_limit
  rw [hval]
  exact ⟨hfin, h.abs_round_sub_le⟩

theorem convert_error {x : Binary G} (hx : x.isFinite = true) (h : Moderate x.toRat) :
    (x.convert : Binary F).isFinite = true ∧
      |(x.convert : Binary F).toRat - x.toRat| ≤ |x.toRat| / 2 ^ F.precision := by
  obtain ⟨hfin, hval⟩ := convert_spec (G := F) hx h.lt_limit
  rw [hval]
  exact ⟨hfin, h.abs_round_sub_le⟩

theorem convert_exact [G.Wide] {x : Binary G} (hx : x.isFinite = true) (h : Moderate x.toRat)
    (hprec : G.precision ≤ F.precision) (hmin : F.minExponent ≤ G.minExponent) :
    (x.convert : Binary F).isFinite = true ∧ (x.convert : Binary F).toRat = x.toRat := by
  obtain ⟨hfin, hval⟩ := convert_spec (G := F) hx h.lt_limit
  exact ⟨hfin, hval.trans (round_toRat hx hprec hmin)⟩

end Depthwise.Binary
