import Depthwise.Proofs.FixedPoint.Nearest
import Mathlib.Algebra.Order.Group.MinMax

namespace Depthwise.FixedPoint

open Binary

variable {p : Params}

theorem slack_le (hp : p.Sound) : p.slack ≤ 1 / 4 := by
  unfold Params.slack
  split_ifs with h
  · norm_num
  · have := hp.shift_nonneg
    have hpow : (2 : Rat) ^ 1 ≤ 2 ^ p.shift.toNat := pow_le_pow_right₀ one_le_two (by omega)
    exact one_div_le_one_div_of_le (by norm_num) (by linarith)

theorem slack_le_of_shift (h : p.shift.toNat ≠ 1) (h' : p.shift.toNat ≠ 2) (hp : p.Sound) :
    p.slack ≤ 1 / 16 := by
  unfold Params.slack
  split_ifs with hzero
  · norm_num
  · have := hp.shift_nonneg
    have hpow : (2 : Rat) ^ 3 ≤ 2 ^ p.shift.toNat := pow_le_pow_right₀ one_le_two (by omega)
    exact one_div_le_one_div_of_le (by norm_num) (by linarith)

theorem slack_of_shift {k : Nat} (hk : k ≠ 0) (h : p.shift.toNat = k) :
    p.slack = 1 / 2 ^ (k + 1) := by
  unfold Params.slack
  rw [if_neg (by omega), h, pow_succ']

theorem shift_eq_iff (hp : p.Sound) (k : Nat) :
    p.shift.toNat = k ↔ 1 / 2 ^ (k + 1) ≤ p.scale ∧ p.scale < 1 / 2 ^ k := by
  have hge : (2 : Rat) ^ 30 ≤ p.multiplier := by
    have := hp.multiplier_ge
    norm_num
    exact_mod_cast this
  have hlt : (p.multiplier : Rat) < 2 ^ 31 := by
    have := hp.multiplier_lt
    norm_num
    exact_mod_cast this
  have hbounds : 1 / 2 ^ (p.shift.toNat + 1) ≤ p.scale ∧ p.scale < 1 / 2 ^ p.shift.toNat := by
    have hpow : (0 : Rat) < 2 ^ p.shift.toNat := by positivity
    rw [Params.scale, pow_succ, pow_add, div_le_div_iff₀ (by positivity) (by positivity),
      div_lt_div_iff₀ (by positivity) hpow]
    constructor <;> nlinarith
  constructor
  · rintro rfl
    exact hbounds
  · rintro ⟨hlow, hhigh⟩
    have h₁ := (one_div_lt_one_div (by positivity) (by positivity)).1 (hlow.trans_lt hbounds.2)
    have h₂ := (one_div_lt_one_div (by positivity) (by positivity)).1 (hbounds.1.trans_lt hhigh)
    have h₁' := (pow_lt_pow_iff_right₀ one_lt_two).1 h₁
    have h₂' := (pow_lt_pow_iff_right₀ one_lt_two).1 h₂
    omega

theorem abs_rescaled_sub_le (hp : p.Sound) (acc : Int) :
    |(p.rescaled acc : Rat) - acc * p.scale| ≤ 1 / 2 + p.slack := by
  have hslack := slack_nonneg p
  have hfloor := rescaled_eq_floor hp acc
  rw [eq_comm, Int.floor_eq_iff] at hfloor
  rw [abs_le]
  split_ifs at hfloor <;> constructor <;> linarith [hfloor.1, hfloor.2]

theorem abs_clamp_sub_clamp_le (u v low high : Rat) :
    |min (max u low) high - min (max v low) high| ≤ |u - v| := by
  refine (abs_min_sub_min_le_max _ _ _ _).trans ?_
  rw [sub_self, abs_zero]
  exact max_le (abs_max_sub_max_le_abs u v low) (abs_nonneg _)

theorem cast_clamp (n low high : Int) :
    ((min (max n low) high : Int) : Rat) = min (max (n : Rat) low) high := by
  push_cast
  rfl

theorem requantize_eq_clamp (p : Params) (acc : Int) :
    requantize p acc = min (max (p.rescaled acc + p.zeroPoint) p.qmin) p.qmax := by
  rw [requantize_eq, Params.minLessZeroPoint, Params.maxLessZeroPoint]
  omega

theorem abs_requantize_sub_le (hp : p.Sound) (acc : Int) :
    |(requantize p acc : Rat) - min (max (acc * p.scale + p.zeroPoint) p.qmin) p.qmax| ≤
      1 / 2 + p.slack := by
  rw [requantize_eq_clamp, cast_clamp, Int.cast_add]
  refine (abs_clamp_sub_clamp_le _ _ _ _).trans ?_
  rw [add_sub_add_right_eq_sub]
  exact abs_rescaled_sub_le hp acc

theorem slack_eq (hp : p.Sound) :
    p.slack = if p.shift = 0 then 0 else 1 / 2 ^ (p.shift + 1) := by
  have hshift := Int.toNat_of_nonneg hp.shift_nonneg
  rw [Params.slack, ← zpow_natCast, hshift, zpow_add_one₀ two_ne_zero, mul_comm]

/-- A power of two from `2 ^ -32` up has the same value in both formats. -/
theorem convert_twoPow_spec {k : Nat} (hk : k ≤ 32) :
    ((ofRat (1 / 2 ^ k) : Double).convert : Single).isFinite = true ∧
      ((ofRat (1 / 2 ^ k) : Double).convert : Single).toRat = 1 / 2 ^ k := by
  have hbits : |(1 / 2 ^ k : Rat)| = (1 : Nat) * 2 ^ (-k : Int) := by
    rw [abs_of_nonneg (by positivity), Nat.cast_one, one_mul, zpow_neg, zpow_natCast, one_div]
  have hone : |(1 / 2 ^ k : Rat)| ≤ 1 := by
    rw [abs_of_nonneg (by positivity)]
    exact div_le_one_of_le₀ (one_le_pow₀ one_le_two) (by positivity)
  obtain ⟨hfin, hval⟩ := ofRat_spec (F := .double) (x := 1 / 2 ^ k)
    (lt_limit_of_bits (hone.trans_lt (by norm_num [Format.double])) (by decide))
  rw [Format.round_of_bits hbits (by decide) (by change -1074 ≤ (-k : Int); omega)] at hval
  obtain ⟨hfin', hval'⟩ := convert_spec (G := .single) hfin (by
    rw [hval]
    exact lt_limit_of_bits (hone.trans_lt (by norm_num [Format.single])) (by decide))
  rw [hval, Format.round_of_bits hbits (by decide) (by change -149 ≤ (-k : Int); omega)] at hval'
  exact ⟨hfin', hval'⟩

section Worst

variable {k : Nat} (hp : p.Sound) (hk : k ≠ 0) (hscale : p.scale = 1 / 2 ^ (k + 1))

include hp hscale

theorem shift_of_scale : p.shift.toNat = k := by
  have hpow : (0 : Rat) < 2 ^ k := by positivity
  rw [shift_eq_iff hp k, hscale]
  exact ⟨le_rfl, one_div_lt_one_div_of_lt hpow (by rw [pow_succ]; linarith)⟩

omit hp in
theorem twoPow_sub_one_mul_scale :
    ((2 ^ k - 1 : Int) : Rat) * p.scale = 1 / 2 - 1 / 2 ^ (k + 1) := by
  rw [hscale, pow_succ]
  push_cast
  field_simp

include hk

/-- With half the inverse of a power of two as the scale, the accumulator just below that power is
lifted by the first rounding to a half, and from there by the second to one. -/
theorem rescaled_twoPow_sub_one : p.rescaled (2 ^ k - 1) = 1 := by
  have hacc : ¬ (2 ^ k - 1 : Int) < 0 := by
    have : (1 : Int) ≤ 2 ^ k := one_le_pow₀ one_le_two
    omega
  have hsum : (1 / 2 - 1 / 2 ^ (k + 1) + 1 / 2 + 1 / 2 ^ (k + 1) : Rat) = 1 := by ring
  rw [rescaled_eq_floor hp, slack_of_shift hk (shift_of_scale hp hscale), if_neg hacc,
    twoPow_sub_one_mul_scale hscale, hsum, Int.floor_one]

theorem abs_requantize_twoPow_sub_one (hz : p.zeroPoint = 0) (hmin : p.qmin = 0)
    (hmax : p.qmax = 255) :
    |(requantize p (2 ^ k - 1) : Rat) -
        min (max (((2 ^ k - 1 : Int) : Rat) * p.scale + p.zeroPoint) p.qmin) p.qmax| =
      1 / 2 + 1 / 2 ^ (k + 1) := by
  have hcode : requantize p (2 ^ k - 1) = 1 := by
    rw [requantize_eq_clamp, rescaled_twoPow_sub_one hp hk hscale, hz, hmin, hmax]
    rfl
  have hpos : (0 : Rat) < 1 / 2 ^ (k + 1) := by positivity
  have hle : (1 : Rat) / 2 ^ (k + 1) ≤ 1 / 2 :=
    one_div_le_one_div_of_le two_pos (le_self_pow₀ one_le_two (by omega))
  rw [hcode, twoPow_sub_one_mul_scale hscale, hz, hmin, hmax]
  push_cast
  rw [add_zero, max_eq_left (by linarith), min_eq_left (by linarith), abs_of_pos (by linarith)]
  ring

end Worst

variable {path : Path} {scale : Double} {zeroPoint qmin qmax : Int}

/-- Every shift by at least one place has an accumulator that loses the most. -/
theorem exists_abs_requantize_sub_eq (path : Path) {k : Nat} (hk : k ≠ 0) (hk' : k ≤ 31) :
    ∃ (scale : Double) (zeroPoint qmin qmax : Int) (p : Params) (acc : Int),
      derive path scale zeroPoint qmin qmax = .ok p ∧ p.shift = k ∧
      |(requantize p acc : Rat) -
          min (max (acc * (scale.convert : Single).toRat + zeroPoint) qmin) qmax| =
        1 / 2 + 1 / 2 ^ (k + 1) := by
  obtain ⟨hfin, hval⟩ := convert_twoPow_spec (k := k + 1) (by omega)
  have hlow : (1 / 2 ^ 32 : Rat) ≤ 1 / 2 ^ (k + 1) :=
    one_div_le_one_div_of_le (by positivity) (pow_le_pow_right₀ one_le_two (by omega))
  have hhigh : (1 / 2 ^ (k + 1) : Rat) < 1 :=
    (div_lt_one (by positivity)).2 (one_lt_pow₀ one_lt_two (by omega))
  obtain ⟨p, hp, hsound, hscale, hz, hmin, hmax⟩ := @derive_ok path _ 0 0 255 (by decide)
    (by decide) hfin (by rwa [hval]) (by rwa [hval])
  rw [hval] at hscale
  have hworst := abs_requantize_twoPow_sub_one hsound hk hscale hz hmin hmax
  refine ⟨_, 0, 0, 255, p, 2 ^ k - 1, hp, ?_, ?_⟩
  · have := hsound.shift_nonneg
    have := shift_of_scale hsound hscale
    omega
  · rw [hval]
    rwa [hscale, hz, hmin, hmax] at hworst

/-- A code is within half a unit, and for a shift within half a unit and the slack of the shift, of
the clamped exact value. For every shift by at least one place this is the best bound. -/
theorem requantize_accuracy :
    (∀ {path : Path} {scale : Double} {zeroPoint qmin qmax : Int} {p : Params},
      derive path scale zeroPoint qmin qmax = .ok p → (0 ≤ p.shift ∧ p.shift ≤ 31) ∧ ∀ acc : Int,
        requantize? p acc = .ok (requantize p acc) ∧
        |(requantize p acc : Rat) -
            min (max (acc * (scale.convert : Single).toRat + zeroPoint) qmin) qmax| ≤
          1 / 2 + if p.shift = 0 then 0 else 1 / 2 ^ (p.shift + 1)) ∧
    ∀ (path : Path) (k : Nat), 1 ≤ k → k ≤ 31 →
      ∃ (scale : Double) (zeroPoint qmin qmax : Int) (p : Params) (acc : Int),
        derive path scale zeroPoint qmin qmax = .ok p ∧ p.shift = k ∧
        |(requantize p acc : Rat) -
            min (max (acc * (scale.convert : Single).toRat + zeroPoint) qmin) qmax| =
          1 / 2 + 1 / 2 ^ (k + 1) := by
  refine ⟨fun {path scale zeroPoint qmin qmax p} h ↦ ?_, fun path k hk hk' ↦ ?_⟩
  · obtain ⟨hp, hscale, hz, hmin, hmax⟩ := derive_spec h
    have hshift : p.shift ≤ 31 := Int.lt_add_one_iff.1 hp.shift_lt
    refine ⟨⟨hp.shift_nonneg, hshift⟩, fun acc ↦ ?_⟩
    have hbound := abs_requantize_sub_le hp acc
    rw [hscale, hz, hmin, hmax, slack_eq hp] at hbound
    exact ⟨requantize?_eq hp acc, hbound⟩
  · exact exists_abs_requantize_sub_eq path (by omega) hk'

/-- The scale of an eighth at its worst accumulator, and the largest shift. -/
theorem requantize_accuracy_eighth :
    (requantize? eighthParams 3 = .ok (requantize eighthParams 3) ∧
      |(requantize eighthParams 3 : Rat) -
          min (max (((3 : Int) : Rat) * ((ofRat (1 / 8) : Double).convert : Single).toRat +
            (200 : Int)) (10 : Int)) (240 : Int)| ≤
        1 / 2 + if eighthParams.shift = 0 then 0 else 1 / 2 ^ (eighthParams.shift + 1)) ∧
    ∃ (scale : Double) (zeroPoint qmin qmax : Int) (p : Params) (acc : Int),
      derive .vector scale zeroPoint qmin qmax = .ok p ∧ p.shift = (31 : Nat) ∧
      |(requantize p acc : Rat) -
          min (max (acc * (scale.convert : Single).toRat + zeroPoint) qmin) qmax| =
        1 / 2 + 1 / 2 ^ (31 + 1) :=
  ⟨(requantize_accuracy.1 derive_eighth).2 3,
    requantize_accuracy.2 .vector 31 (by decide) (by decide)⟩

end Depthwise.FixedPoint
