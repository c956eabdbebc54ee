import Depthwise.Affine
import Depthwise.Proofs.Binary.Error
import Depthwise.Proofs.FixedPoint.Scale

namespace Depthwise.Affine

open Binary

/-- Scales between the floor and the largest that accumulators of 32 bits lead to. -/
def Sane (scale : Double) : Prop :=
  scale.isFinite = true ∧ 1000009 / 1000000 ≤ scale.toRat ∧ scale.toRat ≤ 2 ^ 25

theorem Sane.pos {scale : Double} (h : Sane scale) : 0 < scale.toRat :=
  lt_of_lt_of_le (by norm_num) h.2.1

theorem scaleFloor_spec : scaleFloor.isFinite = true ∧
    1000009 / 1000000 ≤ scaleFloor.toRat ∧ scaleFloor.toRat ≤ 1000011 / 1000000 := by
  have hmoderate : Moderate (1.00001 : Rat) :=
    .of_bounds (by norm_num [abs_of_nonneg]) (by norm_num [abs_of_nonneg])
  obtain ⟨hfin, herr⟩ := ofRat_error (F := .double) hmoderate
  have habs : |(1.00001 : Rat)| = 1.00001 := abs_of_nonneg (by norm_num)
  rw [habs, abs_le] at herr
  norm_num [Format.double] at herr
  refine ⟨hfin, ?_, ?_⟩ <;> rw [scaleFloor] <;> norm_num <;> linarith

theorem scaleOfRange_spec {range : Int} (hrange : 256 ≤ range) (h : range ≤ 2 ^ 32) :
    (scaleOfRange range).isFinite = true ∧
      |(scaleOfRange range).toRat - range / 255| ≤ range / 255 / 2 ^ 53 := by
  obtain ⟨hfin, hval⟩ := toRat_ofInt_double range (by omega)
  obtain ⟨hfin', hval'⟩ := toRat_ofInt_double 255 (by decide)
  have hlow : (256 : Rat) ≤ range := by exact_mod_cast hrange
  have hhigh : (range : Rat) ≤ 2 ^ 32 := by exact_mod_cast h
  have hpos : (0 : Rat) ≤ range / 255 := by positivity
  have hmoderate : Moderate ((ofInt range : Double).toRat / (ofInt 255 : Double).toRat) := by
    rw [hval, hval']
    push_cast
    exact .of_bounds (by rw [abs_of_nonneg hpos]; norm_num; linarith)
      (by rw [abs_of_nonneg hpos]; norm_num; linarith)
  obtain ⟨hquot, herr⟩ := div_error hfin hfin' (by rw [hval']; norm_num) hmoderate
  rw [hval, hval'] at herr
  push_cast at herr
  rw [abs_of_nonneg hpos] at herr
  rw [scaleOfRange, if_pos hrange]
  exact ⟨hquot, herr⟩

theorem scaleOfRange_sane {range : Int} (h : range ≤ 2 ^ 32) : Sane (scaleOfRange range) := by
  rcases lt_or_ge range 256 with hrange | hrange
  · obtain ⟨hfin, hlow, hhigh⟩ := scaleFloor_spec
    rw [scaleOfRange, if_neg (by omega)]
    exact ⟨hfin, hlow, hhigh.trans (by norm_num)⟩
  · obtain ⟨hfin, herr⟩ := scaleOfRange_spec hrange h
    have hlow : (256 : Rat) ≤ range := by exact_mod_cast hrange
    have hhigh : (range : Rat) ≤ 2 ^ 32 := by exact_mod_cast h
    rw [abs_le] at herr
    norm_num at herr hhigh
    exact ⟨hfin, by linarith, by norm_num; linarith⟩

/-- Rounding a scale and then its reciprocal leaves a relative error of two roundings. -/
theorem abs_mul_sub_one_le {scale rounded reciprocal unit : Rat} (hscale : 0 < scale)
    (hunit : 0 ≤ unit) (hunit' : unit ≤ 1 / 2) (hrounded : |rounded - scale| ≤ scale * unit)
    (hreciprocal : |reciprocal - 1 / rounded| ≤ 1 / rounded * unit) :
    |reciprocal * scale - 1| ≤ 4 * unit := by
  rw [abs_le] at hrounded
  have hhalf : scale * (1 / 2) ≤ rounded := by nlinarith
  have hpos : 0 < rounded := by linarith
  have hproduct : |reciprocal * rounded - 1| ≤ unit := by
    have heq : reciprocal * rounded - 1 = (reciprocal - 1 / rounded) * rounded := by field_simp
    rw [heq, abs_mul, abs_of_pos hpos]
    calc |reciprocal - 1 / rounded| * rounded ≤ 1 / rounded * unit * rounded :=
          mul_le_mul_of_nonneg_right hreciprocal hpos.le
      _ = unit := by field_simp
  rw [abs_le] at hproduct ⊢
  -- everything times the rounded scale, which is at least half of the scale
  have hfactor : (reciprocal * scale - 1) * rounded =
      (reciprocal * rounded - 1) * scale + (scale - rounded) := by ring
  constructor
  · by_contra hlt
    nlinarith
  · by_contra hlt
    nlinarith

theorem convert_scale_spec {scale : Double} (h : Sane scale) :
    (scale.convert : Single).isFinite = true ∧
      |(scale.convert : Single).toRat - scale.toRat| ≤ scale.toRat * (1 / 2 ^ 24) ∧
      1000008 / 1000000 ≤ (scale.convert : Single).toRat ∧
      (scale.convert : Single).toRat ≤ 2 ^ 26 := by
  have hpos := h.pos
  obtain ⟨hfin, hlow, hhigh⟩ := h
  norm_num at hhigh
  have hmoderate : Moderate scale.toRat :=
    .of_bounds (by rw [abs_of_pos hpos]; norm_num; linarith)
      (by rw [abs_of_pos hpos]; norm_num; linarith)
  obtain ⟨hrounded, herr⟩ := convert_error (F := .single) hfin hmoderate
  rw [abs_of_pos hpos, div_eq_mul_one_div] at herr
  have herr' := abs_le.1 herr
  norm_num [Format.single] at herr'
  exact ⟨hrounded, herr, by linarith, by norm_num; linarith⟩

theorem reciprocal_spec {rounded : Single} (hfin : rounded.isFinite = true)
    (hlow : 1000008 / 1000000 ≤ rounded.toRat) (hhigh : rounded.toRat ≤ 2 ^ 26) :
    ((ofInt 1 : Single) / rounded).isFinite = true ∧
      |((ofInt 1 : Single) / rounded).toRat - 1 / rounded.toRat| ≤
        1 / rounded.toRat * (1 / 2 ^ 24) ∧
      1 / 2 ^ 32 ≤ ((ofInt 1 : Single) / rounded).toRat ∧
      ((ofInt 1 : Single) / rounded).toRat < 1 := by
  obtain ⟨hone, hval⟩ := FixedPoint.one_spec
  have hquot_low : (1 : Rat) / 2 ^ 26 ≤ 1 / rounded.toRat :=
    one_div_le_one_div_of_le (by linarith) hhigh
  have hquot_high : 1 / rounded.toRat ≤ 1 / (1000008 / 1000000) :=
    one_div_le_one_div_of_le (by norm_num) hlow
  have hpos : 0 < 1 / rounded.toRat := lt_of_lt_of_le (by norm_num) hquot_low
  norm_num only at hquot_low hquot_high
  have hmoderate : Moderate ((ofInt 1 : Single).toRat / rounded.toRat) := by
    rw [hval]
    exact .of_bounds (by rw [abs_of_pos hpos]; norm_num only; linarith)
      (by rw [abs_of_pos hpos]; norm_num only; linarith)
  obtain ⟨hquot, herr⟩ := div_error hone hfin (by linarith) hmoderate
  rw [hval, abs_of_pos hpos, div_eq_mul_one_div (1 / rounded.toRat)] at herr
  have herr' := abs_le.1 herr
  norm_num only [Format.single] at herr'
  exact ⟨hquot, herr, by norm_num only; linarith, by linarith⟩

theorem convert_convert {x : Single} (hx : x.isFinite = true) (h : Moderate x.toRat) :
    (x.convert : Double).isFinite = true ∧ (x.convert : Double).toRat = x.toRat ∧
      ((x.convert : Double).convert : Single).isFinite = true ∧
      ((x.convert : Double).convert : Single).toRat = x.toRat := by
  obtain ⟨hwide, hval⟩ := convert_exact (F := .double) hx h (by decide) (by decide)
  obtain ⟨hback, hval'⟩ := convert_spec (G := .single) hwide (by rw [hval]; exact h.lt_limit)
  exact ⟨hwide, hval, hback, by rw [hval', hval, round_toRat hx le_rfl le_rfl]⟩

variable {q : Affine}

/-- The reciprocal of a sane scale: a 32-bit value below one, close to the exact reciprocal. -/
theorem exists_requantizationScale_eq (h : Sane q.scale) :
    ∃ s : Single, q.requantizationScale = s.convert ∧ s.isFinite = true ∧ Moderate s.toRat ∧
      1 / 2 ^ 32 ≤ s.toRat ∧ s.toRat < 1 ∧ |s.toRat * q.scale.toRat - 1| ≤ 1 / 2 ^ 22 := by
  obtain ⟨hrounded, herr, hlow, hhigh⟩ := convert_scale_spec h
  obtain ⟨hrec, hrecerr, hreclow, hrechigh⟩ := reciprocal_spec hrounded hlow hhigh
  have herror := abs_mul_sub_one_le h.pos (by norm_num) (by norm_num) herr hrecerr
  have hpos := lt_of_lt_of_le (one_div_pos.2 (by positivity)) hreclow
  refine ⟨_, rfl, hrec, .of_bounds ?_ ?_, hreclow, hrechigh, herror.trans (by norm_num)⟩ <;>
    rw [abs_of_pos hpos]
  · exact le_trans (by norm_num) hreclow
  · exact hrechigh.le.trans (by norm_num)

/-- Widening the reciprocal to 64 bits and narrowing it again loses nothing. -/
theorem requantizationScale_spec (h : Sane q.scale) :
    (q.requantizationScale.convert : Single).isFinite = true ∧
      (q.requantizationScale.convert : Single).toRat = q.requantizationScale.toRat ∧
      1 / 2 ^ 32 ≤ q.requantizationScale.toRat ∧ q.requantizationScale.toRat < 1 ∧
      |q.requantizationScale.toRat * q.scale.toRat - 1| ≤ 1 / 2 ^ 22 := by
  obtain ⟨s, hs, hfin, hmoderate, hlow, hhigh, herror⟩ := exists_requantizationScale_eq h
  obtain ⟨-, hval, hback, hbackval⟩ := convert_convert hfin hmoderate
  rw [hs, hval]
  exact ⟨hback, hbackval, hlow, hhigh, herror⟩

end Depthwise.Affine
