import Depthwise.Proofs.FixedPoint.Requantize

namespace Depthwise.FixedPoint

/-- The nearest integer to a number; where two are equally near, the one further from zero. -/
structure NearestAway (x : Rat) (n : Int) : Prop where
  near : |x - n| ≤ 1 / 2
  away : |x - n| = 1 / 2 → |x| < |(n : Rat)|

namespace NearestAway

variable {x : Rat} {n m : Int}

theorem neg (h : NearestAway x n) : NearestAway (-x) (-n) := by
  have hdiff : -x - ((-n : Int) : Rat) = -(x - n) := by
    push_cast
    ring
  constructor
  · rw [hdiff, abs_neg]
    exact h.near
  · rw [hdiff, abs_neg, abs_neg, Int.cast_neg, abs_neg]
    exact h.away

theorem iff_of_nonneg (hx : 0 ≤ x) :
    NearestAway x n ↔ (n : Rat) - 1 / 2 ≤ x ∧ x < n + 1 / 2 := by
  constructor
  · rintro ⟨hnear, haway⟩
    obtain ⟨hlow, hhigh⟩ := abs_le.1 hnear
    refine ⟨by linarith, lt_of_le_of_ne (by linarith) fun htie ↦ ?_⟩
    have hn : (0 : Rat) ≤ n := by
      have : (-1 : Rat) < n := by linarith
      have : -1 < n := by exact_mod_cast this
      exact_mod_cast (by omega : 0 ≤ n)
    have hfar := haway (by rw [htie, add_sub_cancel_left, abs_of_pos one_half_pos])
    rw [abs_of_nonneg hx, abs_of_nonneg hn] at hfar
    linarith
  · rintro ⟨hlow, hhigh⟩
    refine ⟨abs_le.2 ⟨by linarith, by linarith⟩, fun htie ↦ ?_⟩
    rcases abs_choice (x - n) with h | h <;> rw [h] at htie
    · linarith
    · rw [abs_of_nonneg hx, abs_of_pos (by linarith)]
      linarith

theorem eq_of_nonneg (hx : 0 ≤ x) (hn : NearestAway x n) (hm : NearestAway x m) : n = m := by
  obtain ⟨hnlow, hnhigh⟩ := (iff_of_nonneg hx).1 hn
  obtain ⟨hmlow, hmhigh⟩ := (iff_of_nonneg hx).1 hm
  have hlt : (n : Rat) < m + 1 := by linarith
  have hgt : (m : Rat) < n + 1 := by linarith
  have hlt' : n < m + 1 := by exact_mod_cast hlt
  have hgt' : m < n + 1 := by exact_mod_cast hgt
  omega

theorem eq (hn : NearestAway x n) (hm : NearestAway x m) : n = m := by
  rcases le_total 0 x with hx | hx
  · exact eq_of_nonneg hx hn hm
  · exact neg_injective (eq_of_nonneg (neg_nonneg.2 hx) hn.neg hm.neg)

theorem eq_iff (h : NearestAway x n) : NearestAway x m ↔ m = n :=
  ⟨fun hm ↦ hm.eq h, fun hm ↦ hm ▸ h⟩

end NearestAway

variable {p : Params}

theorem scaledProduct_eq_floor (acc : Int) :
    scaledProduct p acc = ⌊(acc * p.multiplier : Rat) / 2 ^ 31 + 1 / 2⌋ := by
  obtain ⟨hlow, hhigh⟩ := scaledProduct_bounds (p := p) acc
  have hlow' : (0x80000000 * scaledProduct p acc : Rat) ≤ acc * p.multiplier + 0x40000000 := by
    exact_mod_cast hlow
  have hhigh' : (acc * p.multiplier + 0x40000000 : Rat) <
      0x80000000 * scaledProduct p acc + 0x80000000 := by exact_mod_cast hhigh
  rw [eq_comm, Int.floor_eq_iff]
  norm_num only
  constructor <;> linarith

/-- The rounding shift is a division by a power of two, rounded to the nearest integer. -/
theorem nearestAway_roundingShift (hp : p.Sound) (q : Int) :
    NearestAway (q / 2 ^ p.shift) (roundingShift p q) := by
  have hpos : (0 : Rat) < 2 ^ p.shift := zpow_pos two_pos _
  by_cases hshift : p.shift = 0
  · rw [roundingShift_of_shift_eq_zero hp hshift, hshift, zpow_zero, div_one]
    constructor <;> rw [sub_self, abs_zero] <;> norm_num
  obtain ⟨e, he, hpow⟩ := exists_two_pow_shift hp hshift
  obtain ⟨hnonneg, hnonpos⟩ := roundingShift_bounds hp he hpow q
  have hpow' : (2 : Rat) ^ p.shift = 2 * e := by
    rw [← Int.toNat_of_nonneg hp.shift_nonneg, zpow_natCast]
    exact_mod_cast hpow
  have he' : (0 : Rat) < e := by exact_mod_cast he
  rw [hpow']
  rcases le_total 0 q with hq | hq
  · obtain ⟨hlow, hhigh⟩ := hnonneg hq
    have hlow' : (e * (2 * roundingShift p q - 1) : Rat) ≤ q := by exact_mod_cast hlow
    have hhigh' : (q : Rat) < e * (2 * roundingShift p q + 1) := by exact_mod_cast hhigh
    have hq' : (0 : Rat) ≤ q := by exact_mod_cast hq
    rw [NearestAway.iff_of_nonneg (by positivity), le_div_iff₀ (by positivity),
      div_lt_iff₀ (by positivity)]
    constructor <;> linarith
  · obtain ⟨hlow, hhigh⟩ := hnonpos hq
    have hlow' : (e * (2 * roundingShift p q - 1) : Rat) < q := by exact_mod_cast hlow
    have hhigh' : (q : Rat) ≤ e * (2 * roundingShift p q + 1) := by exact_mod_cast hhigh
    have hq' : (0 : Rat) ≤ -q := by exact_mod_cast neg_nonneg.2 hq
    -- mirrored at zero, where the rule for numbers that are not negative applies
    suffices h : NearestAway (-q / (2 * e)) (-roundingShift p q) by
      simpa only [neg_div, neg_neg] using h.neg
    rw [NearestAway.iff_of_nonneg (by positivity), le_div_iff₀ (by positivity),
      div_lt_iff₀ (by positivity)]
    push_cast
    constructor <;> linarith

section Order

variable (hp : p.Sound) {a b : Int} (hab : a ≤ b)

include hp hab

theorem rescaled_mono : p.rescaled a ≤ p.rescaled b := by
  have hscale := scale_pos hp
  have hslack := slack_nonneg p
  have hcast : (a : Rat) ≤ b := by exact_mod_cast hab
  have hproduct : (a : Rat) * p.scale ≤ b * p.scale := by gcongr
  rw [rescaled_eq_floor hp, rescaled_eq_floor hp]
  refine Int.floor_le_floor ?_
  -- the slack is the same on either side of zero, and larger above it
  split_ifs with ha hb hb
  · linarith
  · linarith
  · omega
  · linarith

theorem requantize_mono : requantize p a ≤ requantize p b := by
  have := rescaled_mono hp hab
  rw [requantize_eq, requantize_eq]
  omega

end Order

variable {path : Path} {scale : Double} {zeroPoint qmin qmax : Int}

/-- A code is the accumulator after two roundings to the nearest integer, clamped. -/
theorem requantize_two_roundings (h : derive path scale zeroPoint qmin qmax = .ok p) (acc : Int) :
    ∃ q r : Int, q = ⌊(acc * p.multiplier : Rat) / 2 ^ 31 + 1 / 2⌋ ∧
      (∀ n : Int, NearestAway (q / 2 ^ p.shift) n ↔ n = r) ∧
      requantize? p acc =
        .ok (min (max r (qmin - zeroPoint)) (qmax - zeroPoint) + zeroPoint) := by
  obtain ⟨hp, -, hz, hmin, hmax⟩ := derive_spec h
  refine ⟨scaledProduct p acc, p.rescaled acc, scaledProduct_eq_floor acc, fun n ↦ ?_, ?_⟩
  · exact (nearestAway_roundingShift hp _).eq_iff
  · rw [requantize?_eq hp, requantize_eq, Params.minLessZeroPoint, Params.maxLessZeroPoint, hz,
      hmin, hmax]

def eighthParams : Params := ⟨1073741824, 2, 3, 1, 200, 10, 240, .scalar⟩

theorem derive_eighth : derive .scalar (.ofRat (1 / 8)) 200 10 240 = .ok eighthParams := by
  decide +kernel

/-- Both roundings meet a half: `-5 / 2` goes up to `-2`, and `-2 / 4` away from zero to `-1`. -/
theorem requantize_two_roundings_tie :
    ∃ q r : Int, q = ⌊(((-5 : Int) : Rat) * eighthParams.multiplier) / 2 ^ 31 + 1 / 2⌋ ∧
      (∀ n : Int, NearestAway (q / 2 ^ eighthParams.shift) n ↔ n = r) ∧
      requantize? eighthParams (-5) = .ok (min (max r (10 - 200)) (240 - 200) + 200) :=
  requantize_two_roundings derive_eighth (-5)

/-- Larger accumulators never have smaller codes. -/
theorem requantize_monotone (h : derive path scale zeroPoint qmin qmax = .ok p) {a b : Int}
    (hab : a ≤ b) :
    ∃ m n : Int, requantize? p a = .ok m ∧ requantize? p b = .ok n ∧ m ≤ n := by
  have hp := derive_sound h
  exact ⟨_, _, requantize?_eq hp a, requantize?_eq hp b, requantize_mono hp hab⟩

/-- Across zero, where the second rounding changes its direction. -/
theorem requantize_monotone_across_zero :
    (-2 : Int) ≤ 2 ∧ ∃ m n : Int, requantize? eighthParams (-2) = .ok m ∧
      requantize? eighthParams 2 = .ok n ∧ m ≤ n :=
  ⟨by decide, requantize_monotone derive_eighth (by decide)⟩

end Depthwise.FixedPoint
