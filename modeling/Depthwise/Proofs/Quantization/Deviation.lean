import Depthwise.Proofs.FixedPoint.Accuracy
import Depthwise.Proofs.Quantization.Expected

namespace Depthwise

open FixedPoint (Params abs_clamp_sub_clamp_le cast_clamp)

namespace Affine

/-- Parameters that were made for a quantization and clamp bounds. -/
structure Meets (q : Affine) (qmin qmax : Int) (p : Params) : Prop where
  sound : p.Sound
  scale_eq : p.scale = q.requantizationScale.toRat
  zeroPoint_eq : p.zeroPoint = q.zeroPoint
  qmin_eq : p.qmin = qmin
  qmax_eq : p.qmax = qmax

/-- The two roundings lift an accumulator past the tolerance: its shift is one or two places, the
slack of the rounding shift carries it up to the next code, which is inside the clamp range, and its
expected value is more than three fifths below that code in magnitude. -/
def Overshoots (q : Affine) (qmin qmax acc : Int) : Prop :=
  ∃ shift : Nat, (shift = 1 ∨ shift = 2) ∧
    1 / 2 ^ (shift + 1) ≤ q.requantizationScale.toRat ∧
    q.requantizationScale.toRat < 1 / 2 ^ shift ∧
    ∃ j : Int,
      (0 ≤ acc ∧ j + 1 / 2 - 1 / 2 ^ (shift + 1) ≤ acc * q.requantizationScale.toRat ∧
        (q.expected qmin qmax acc).toRat < j + 2 / 5 ∧ j + 1 ≤ qmax - q.zeroPoint) ∨
      (acc < 0 ∧ j + 1 / 2 - 1 / 2 ^ (shift + 1) < -(acc * q.requantizationScale.toRat) ∧
        -(q.expected qmin qmax acc).toRat < j + 2 / 5 ∧ qmin - q.zeroPoint ≤ -(j + 1))

/-- Nothing overshoots when the shift is neither one place nor two. -/
theorem not_overshoots_of_scale {q : Affine} {qmin qmax acc : Int}
    (hscale : q.requantizationScale.toRat < 1 / 8 ∨ 1 / 2 ≤ q.requantizationScale.toRat) :
    ¬ q.Overshoots qmin qmax acc := by
  rintro ⟨shift, rfl | rfl, hlow, hhigh, -⟩ <;> norm_num at hlow hhigh
  · rcases hscale with h | h <;> linarith
  · rcases hscale with h | h <;> linarith

/-- Next to a number that is rounded up with some slack, more than three fifths are lost exactly
where the clamped number is that much below the code and the code is not cut. -/
theorem exceeds_iff {u w slack : Rat} {n low high : Int} (hle : low ≤ high) (hslack : 0 ≤ slack)
    (hslack' : slack ≤ 1 / 4) (hnear : |u - w| ≤ 1 / 4000) (hlow : n ≤ w + 1 / 2 + slack)
    (hhigh : w + 1 / 2 + slack ≤ n + 1) :
    3 / 5 < |min (max u low) high - ((min (max n low) high : Int) : Rat)| ↔
      min (max u low) high < n - 3 / 5 ∧ n ≤ high := by
  rw [abs_le] at hnear
  have hle' : (low : Rat) ≤ high := by exact_mod_cast hle
  have hbelow : (n : Rat) - 1 < u := by linarith
  have habove : u ≤ n + 1 / 2 + 1 / 4000 := by linarith
  rw [cast_clamp]
  rcases lt_or_ge high n with hcut | hcut
  · have hcut' : (high : Rat) + 1 ≤ n := by exact_mod_cast hcut
    rw [max_eq_left (by linarith), max_eq_left (by linarith), min_eq_right (by linarith),
      min_eq_right (by linarith), sub_self, abs_zero]
    constructor
    · intro h
      norm_num at h
    · rintro ⟨-, h⟩
      omega
  have hcut' : (n : Rat) ≤ high := by exact_mod_cast hcut
  rcases lt_or_ge low n with hraise | hraise
  · have hraise' : (low : Rat) + 1 ≤ n := by exact_mod_cast hraise
    rw [max_eq_left (by linarith), max_eq_left (by linarith), min_eq_left hcut']
    constructor
    · intro h
      have hneg : min u (high : Rat) - n < 0 := by
        by_contra hnonneg
        rw [abs_of_nonneg (not_lt.1 hnonneg)] at h
        have := min_le_left u (high : Rat)
        linarith
      rw [abs_of_neg hneg] at h
      exact ⟨by linarith, hcut⟩
    · rintro ⟨h, -⟩
      rw [abs_of_neg (by linarith)]
      linarith
  · have hraise' : (n : Rat) ≤ low := by exact_mod_cast hraise
    have hclamp_ge : (low : Rat) ≤ min (max u low) high := le_min (le_max_right _ _) hle'
    have hclamp_le : min (max u low) (high : Rat) ≤ low + 1 / 2 + 1 / 4000 :=
      (min_le_left _ _).trans (max_le (by linarith) (by linarith))
    rw [max_eq_right hraise', min_eq_left hle', abs_of_nonneg (by linarith)]
    constructor
    · intro h
      linarith
    · rintro ⟨h, -⟩
      linarith

theorem exceeds_neg_iff {u w slack : Rat} {n low high : Int} (hle : low ≤ high)
    (hslack : 0 ≤ slack) (hslack' : slack ≤ 1 / 4) (hnear : |u - w| ≤ 1 / 4000)
    (hlow : n ≤ w + 1 / 2 - slack) (hhigh : w + 1 / 2 - slack ≤ n + 1) :
    3 / 5 < |min (max u low) high - ((min (max n low) high : Int) : Rat)| ↔
      -min (max u low) high < -n - 3 / 5 ∧ low ≤ n := by
  have hle' : (low : Rat) ≤ high := by exact_mod_cast hle
  have hflip : ∀ v : Rat, min (max (-v) ((-high : Int) : Rat)) ((-low : Int) : Rat) =
      -min (max v low) high := by
    intro v
    push_cast
    rw [max_neg_neg, min_neg_neg, max_comm, max_min_distrib_left, max_comm (low : Rat) v,
      max_eq_right hle']
  have hnear' : |-u - -w| ≤ 1 / 4000 := by
    rw [← neg_add', abs_neg, ← sub_eq_add_neg]
    exact hnear
  have h := exceeds_iff (n := -n) (neg_le_neg hle) hslack hslack' hnear'
    (by push_cast; linarith) (by push_cast; linarith)
  rw [cast_clamp, hflip, Int.cast_neg, hflip, neg_sub_neg, abs_sub_comm] at h
  rw [cast_clamp, h, neg_le_neg_iff]

section Meets

variable {q : Affine} {p : Params} {qmin qmax acc : Int}

theorem Meets.zeroPoint_range (hm : q.Meets qmin qmax p) : 0 ≤ q.zeroPoint ∧ q.zeroPoint ≤ 255 := by
  rw [← hm.zeroPoint_eq]
  exact ⟨hm.sound.zeroPoint_nonneg, hm.sound.zeroPoint_le⟩

theorem Meets.bounds (hm : q.Meets qmin qmax p) :
    -255 ≤ qmin - q.zeroPoint ∧ qmin - q.zeroPoint ≤ qmax - q.zeroPoint ∧
      qmax - q.zeroPoint ≤ 255 := by
  have hmin := hm.sound.qmin_nonneg
  have hle := hm.sound.qmin_le_qmax
  have hmax := hm.sound.qmax_le
  have hzero := hm.zeroPoint_range
  rw [hm.qmin_eq] at hmin hle
  rw [hm.qmax_eq] at hle hmax
  omega

theorem Meets.requantize_sub (hm : q.Meets qmin qmax p) (acc : Int) :
    FixedPoint.requantize p acc - q.zeroPoint =
      min (max (p.rescaled acc) (qmin - q.zeroPoint)) (qmax - q.zeroPoint) := by
  rw [FixedPoint.requantize_eq, Params.minLessZeroPoint, Params.maxLessZeroPoint, hm.zeroPoint_eq,
    hm.qmin_eq, hm.qmax_eq, add_sub_cancel_right]

theorem Meets.expected_spec (hm : q.Meets qmin qmax p) (hq : Sane q.scale)
    (hacc : |acc| ≤ 2 ^ 32) :
    (q.expected qmin qmax acc).isFinite = true ∧ (q.expected qmin qmax acc).toRat =
      min (max (q.quotient acc).toRat ((qmin - q.zeroPoint : Int) : Rat))
        ((qmax - q.zeroPoint : Int) : Rat) := by
  have hmin := hm.sound.qmin_nonneg
  have hle := hm.sound.qmin_le_qmax
  have hmax := hm.sound.qmax_le
  rw [hm.qmin_eq] at hmin hle
  rw [hm.qmax_eq] at hle hmax
  push_cast
  exact Affine.expected_spec hq hacc hm.zeroPoint_range hmin hle hmax

theorem clamp_eq_of_far {u w : Rat} {n low high : Int} (hlow : -255 ≤ low) (hle : low ≤ high)
    (hhigh : high ≤ 255) (hfar : Far u w) (hn : |(n : Rat) - w| ≤ 3 / 4) :
    min (max u low) high = ((min (max n low) high : Int) : Rat) := by
  have hlow' : (-255 : Rat) ≤ low := by exact_mod_cast hlow
  have hle' : (low : Rat) ≤ high := by exact_mod_cast hle
  have hhigh' : (high : Rat) ≤ 255 := by exact_mod_cast hhigh
  rw [abs_le] at hn
  rw [cast_clamp]
  rcases hfar with ⟨hu, hw⟩ | ⟨hu, hw⟩
  · rw [max_eq_left (by linarith), max_eq_left (by linarith), min_eq_right (by linarith),
      min_eq_right (by linarith)]
  · rw [max_eq_right (by linarith), max_eq_right (by linarith)]

variable (hm : q.Meets qmin qmax p) (hq : Sane q.scale) (hacc : |acc| ≤ 2 ^ 32)

include hm hq hacc

theorem expected_eq_of_far (hfar : Far (q.quotient acc).toRat (acc * p.scale)) :
    (q.expected qmin qmax acc).toRat =
      ((FixedPoint.requantize p acc - q.zeroPoint : Int) : Rat) := by
  have hround := (FixedPoint.abs_rescaled_sub_le hm.sound acc).trans
    (add_le_add_right (FixedPoint.slack_le hm.sound) _)
  obtain ⟨hlow, hle, hhigh⟩ := hm.bounds
  rw [(hm.expected_spec hq hacc).2, hm.requantize_sub]
  exact clamp_eq_of_far hlow hle hhigh hfar (hround.trans (by norm_num))

omit hm in
theorem near_or_far_scale (hscale : p.scale = q.requantizationScale.toRat) :
    |(q.quotient acc).toRat - acc * p.scale| ≤ 1 / 4000 ∨
      Far (q.quotient acc).toRat (acc * p.scale) := by
  rw [hscale]
  exact near_or_far hq hacc

/-- The code of an accumulator is always less than a code away from its expected value. -/
theorem abs_code_sub_expected_lt :
    |((FixedPoint.requantize p acc - q.zeroPoint : Int) : Rat) -
      (q.expected qmin qmax acc).toRat| < 751 / 1000 := by
  rcases near_or_far_scale hq hacc hm.scale_eq with hnear | hfar
  · have hround := (FixedPoint.abs_rescaled_sub_le hm.sound acc).trans
      (add_le_add_right (FixedPoint.slack_le hm.sound) _)
    rw [(hm.expected_spec hq hacc).2, hm.requantize_sub, cast_clamp]
    calc _ ≤ |(p.rescaled acc : Rat) - (q.quotient acc).toRat| := abs_clamp_sub_clamp_le _ _ _ _
      _ ≤ |(p.rescaled acc : Rat) - acc * p.scale| + |acc * p.scale - (q.quotient acc).toRat| :=
        abs_sub_le _ _ _
      _ < 751 / 1000 := by
        rw [abs_sub_comm (acc * p.scale)]
        linarith
  · rw [expected_eq_of_far hm hq hacc hfar, sub_self, abs_zero]
    norm_num

/-- Without a shift by one or two places nothing is past the tolerance. -/
theorem abs_expected_sub_code_le (hshift : p.shift.toNat ≠ 1) (hshift' : p.shift.toNat ≠ 2) :
    |(q.expected qmin qmax acc).toRat -
      ((FixedPoint.requantize p acc - q.zeroPoint : Int) : Rat)| ≤ 3 / 5 := by
  rcases near_or_far_scale hq hacc hm.scale_eq with hnear | hfar
  · have hround := FixedPoint.abs_rescaled_sub_le hm.sound acc
    have hslack := FixedPoint.slack_le_of_shift hshift hshift' hm.sound
    rw [(hm.expected_spec hq hacc).2, hm.requantize_sub, cast_clamp]
    calc _ ≤ |(q.quotient acc).toRat - (p.rescaled acc : Rat)| := abs_clamp_sub_clamp_le _ _ _ _
      _ ≤ |(q.quotient acc).toRat - acc * p.scale| + |acc * p.scale - (p.rescaled acc : Rat)| :=
        abs_sub_le _ _ _
      _ ≤ 3 / 5 := by
        rw [abs_sub_comm (acc * p.scale)]
        linarith
  · rw [expected_eq_of_far hm hq hacc hfar, sub_self, abs_zero]
    norm_num

theorem not_overshoots_of_far (hfar : Far (q.quotient acc).toRat (acc * p.scale)) :
    ¬ q.Overshoots qmin qmax acc := by
  have hscale := FixedPoint.scale_pos hm.sound
  obtain ⟨hlow, -, hhigh⟩ := hm.bounds
  have hlow' : (-255 : Rat) ≤ ((qmin - q.zeroPoint : Int) : Rat) := by exact_mod_cast hlow
  have hhigh' : ((qmax - q.zeroPoint : Int) : Rat) ≤ 255 := by exact_mod_cast hhigh
  rintro ⟨k, hk, -, -, j, ⟨hsign, -, hexp, hcut⟩ | ⟨hsign, -, hexp, hcut⟩⟩ <;>
    rw [(hm.expected_spec hq hacc).2] at hexp
  · have hsign' : (0 : Rat) ≤ acc * p.scale :=
      mul_nonneg (by exact_mod_cast hsign) hscale.le
    have hcut' : (j : Rat) + 1 ≤ ((qmax - q.zeroPoint : Int) : Rat) := by exact_mod_cast hcut
    rcases hfar with ⟨hu, -⟩ | ⟨-, hw⟩
    · rcases min_lt_iff.1 hexp with h | h
      · have := (le_max_left _ _).trans_lt h
        linarith
      · linarith
    · linarith
  · have hsign' : (acc : Rat) * p.scale < 0 :=
      mul_neg_of_neg_of_pos (by exact_mod_cast hsign) hscale
    have hcut' : ((qmin - q.zeroPoint : Int) : Rat) ≤ -(j + 1) := by exact_mod_cast hcut
    rw [neg_lt] at hexp
    rcases hfar with ⟨-, hw⟩ | ⟨hu, -⟩
    · linarith
    · rcases lt_max_iff.1 (hexp.trans_le (min_le_left _ _)) with h | h <;> linarith

/-- Rounded up, an accumulator overshoots exactly when its code is inside the clamp range and more
than three fifths above the expected value. -/
theorem overshoots_iff_of_nonneg (hnonneg : 0 ≤ acc)
    (hshift : p.shift.toNat = 1 ∨ p.shift.toNat = 2)
    (hnear : |(q.quotient acc).toRat - acc * p.scale| ≤ 1 / 4000) :
    q.Overshoots qmin qmax acc ↔
      (q.expected qmin qmax acc).toRat < p.rescaled acc - 3 / 5 ∧
        p.rescaled acc ≤ qmax - q.zeroPoint := by
  have hne : p.shift.toNat ≠ 0 := by omega
  have hslack := FixedPoint.slack_of_shift hne rfl
  have hslack_le := FixedPoint.slack_le hm.sound
  have hbounds := (FixedPoint.shift_eq_iff hm.sound _).1 rfl
  obtain ⟨hlow, hhigh⟩ := Int.floor_eq_iff.1 (FixedPoint.rescaled_eq_floor hm.sound acc).symm
  rw [if_neg (not_lt.2 hnonneg)] at hlow hhigh
  rw [abs_le] at hnear
  constructor
  · rintro ⟨k, hk, hklow, hkhigh, j, ⟨-, hj, hexp, hcut⟩ | ⟨hneg, -⟩⟩
    · rw [← hm.scale_eq] at hklow hkhigh hj
      obtain rfl := (FixedPoint.shift_eq_iff hm.sound k).2 ⟨hklow, hkhigh⟩
      rw [← hslack] at hj
      have hcut' : ((j + 1 : Int) : Rat) ≤ ((qmax - q.zeroPoint : Int) : Rat) := by
        exact_mod_cast hcut
      have hquotient : (q.quotient acc).toRat < j + 2 / 5 := by
        rw [(hm.expected_spec hq hacc).2] at hexp
        rcases min_lt_iff.1 hexp with h | h
        · exact (le_max_left _ _).trans_lt h
        · push_cast at h hcut'
          linarith
      have hrescaled : p.rescaled acc = j + 1 := by
        have h₁ : (p.rescaled acc : Rat) < ((j + 2 : Int) : Rat) := by push_cast; linarith
        have h₂ : ((j : Int) : Rat) < p.rescaled acc := by linarith
        have h₁' : p.rescaled acc < j + 2 := by exact_mod_cast h₁
        have h₂' : j < p.rescaled acc := by exact_mod_cast h₂
        omega
      rw [hrescaled]
      exact ⟨by push_cast; linarith, hcut⟩
    · omega
  · rintro ⟨hexp, hcut⟩
    rw [hm.scale_eq] at hbounds
    refine ⟨p.shift.toNat, hshift, hbounds.1, hbounds.2, p.rescaled acc - 1, .inl
      ⟨hnonneg, ?_, by push_cast; linarith, by omega⟩⟩
    rw [← hm.scale_eq, ← hslack]
    push_cast
    linarith

theorem overshoots_iff_of_neg (hneg : acc < 0)
    (hshift : p.shift.toNat = 1 ∨ p.shift.toNat = 2)
    (hnear : |(q.quotient acc).toRat - acc * p.scale| ≤ 1 / 4000) :
    q.Overshoots qmin qmax acc ↔
      -(q.expected qmin qmax acc).toRat < -p.rescaled acc - 3 / 5 ∧
        qmin - q.zeroPoint ≤ p.rescaled acc := by
  have hne : p.shift.toNat ≠ 0 := by omega
  have hslack := FixedPoint.slack_of_shift hne rfl
  have hslack_le := FixedPoint.slack_le hm.sound
  have hbounds := (FixedPoint.shift_eq_iff hm.sound _).1 rfl
  obtain ⟨hlow, hhigh⟩ := Int.floor_eq_iff.1 (FixedPoint.rescaled_eq_floor hm.sound acc).symm
  rw [if_pos hneg] at hlow hhigh
  rw [abs_le] at hnear
  constructor
  · rintro ⟨k, hk, hklow, hkhigh, j, ⟨hnonneg, -⟩ | ⟨-, hj, hexp, hcut⟩⟩
    · omega
    · rw [← hm.scale_eq] at hklow hkhigh hj
      obtain rfl := (FixedPoint.shift_eq_iff hm.sound k).2 ⟨hklow, hkhigh⟩
      rw [← hslack] at hj
      have hcut' : ((qmin - q.zeroPoint : Int) : Rat) ≤ ((-(j + 1) : Int) : Rat) := by
        exact_mod_cast hcut
      have hquotient : -(q.quotient acc).toRat < j + 2 / 5 := by
        rw [(hm.expected_spec hq hacc).2, neg_lt] at hexp
        rcases lt_max_iff.1 (hexp.trans_le (min_le_left _ _)) with h | h
        · linarith
        · push_cast at h hcut'
          linarith
      have hrescaled : p.rescaled acc = -(j + 1) := by
        have h₁ : (p.rescaled acc : Rat) < ((-j : Int) : Rat) := by push_cast; linarith
        have h₂ : ((-(j + 2) : Int) : Rat) < p.rescaled acc := by push_cast; linarith
        have h₁' : p.rescaled acc < -j := by exact_mod_cast h₁
        have h₂' : -(j + 2) < p.rescaled acc := by exact_mod_cast h₂
        omega
      rw [hrescaled]
      exact ⟨by push_cast; linarith, hcut⟩
  · rintro ⟨hexp, hcut⟩
    rw [hm.scale_eq] at hbounds
    refine ⟨p.shift.toNat, hshift, hbounds.1, hbounds.2, -p.rescaled acc - 1, .inr
      ⟨hneg, ?_, by push_cast; linarith, by omega⟩⟩
    rw [← hm.scale_eq, ← hslack]
    push_cast
    linarith

/-- The code of an accumulator is past the tolerance exactly when it overshoots. -/
theorem exceeds_iff_overshoots :
    3 / 5 < |(q.expected qmin qmax acc).toRat -
      ((FixedPoint.requantize p acc - q.zeroPoint : Int) : Rat)| ↔ q.Overshoots qmin qmax acc := by
  by_cases hshift : p.shift.toNat = 1 ∨ p.shift.toNat = 2
  · obtain ⟨-, hle, -⟩ := hm.bounds
    have hslack := FixedPoint.slack_le hm.sound
    have hslack' := FixedPoint.slack_nonneg p
    obtain ⟨hlow, hhigh⟩ := Int.floor_eq_iff.1 (FixedPoint.rescaled_eq_floor hm.sound acc).symm
    rcases near_or_far_scale hq hacc hm.scale_eq with hnear | hfar
    · rw [(hm.expected_spec hq hacc).2, hm.requantize_sub]
      rcases lt_or_ge acc 0 with hneg | hnonneg
      · rw [if_pos hneg] at hlow hhigh
        rw [overshoots_iff_of_neg hm hq hacc hneg hshift hnear, (hm.expected_spec hq hacc).2]
        exact exceeds_neg_iff hle hslack' hslack hnear (by linarith) (by linarith)
      · rw [if_neg (not_lt.2 hnonneg)] at hlow hhigh
        rw [overshoots_iff_of_nonneg hm hq hacc hnonneg hshift hnear, (hm.expected_spec hq hacc).2]
        exact exceeds_iff hle hslack' hslack hnear (by linarith) (by linarith)
    · refine iff_of_false ?_ (not_overshoots_of_far hm hq hacc hfar)
      rw [expected_eq_of_far hm hq hacc hfar, sub_self, abs_zero]
      norm_num
  · refine iff_of_false (not_lt.2 ?_) ?_
    · rw [not_or] at hshift
      exact abs_expected_sub_code_le hm hq hacc hshift.1 hshift.2
    · rintro ⟨k, hk, hlow, hhigh, -⟩
      rw [← hm.scale_eq] at hlow hhigh
      obtain rfl := (FixedPoint.shift_eq_iff hm.sound k).2 ⟨hlow, hhigh⟩
      exact hshift hk

end Meets

end Affine

end Depthwise
