import Depthwise.FixedPoint.Requantize
import Depthwise.Proofs.FixedPoint.Scale

namespace Depthwise

namespace Bitwise

theorem without_mask (m k : Nat) : without (2 ^ k - 1) m = 2 ^ k - (m % 2 ^ k + 1) := by
  apply Nat.eq_of_testBit_eq
  intro i
  rw [Nat.testBit_two_pow_sub_succ (Nat.mod_lt _ (Nat.two_pow_pos k)), Nat.testBit_mod_two_pow]
  simp only [without, Nat.testBit_xor, Nat.testBit_and, Nat.testBit_two_pow_sub_one]
  cases decide (i < k) <;> simp

theorem conjunction_mask (q : Int) (k : Nat) : conjunction q (2 ^ k - 1) = q % 2 ^ k := by
  have hpos := Nat.two_pow_pos k
  have hmask : (2 ^ k - 1 : Int) = ((2 ^ k - 1 : Nat) : Int) := by push_cast [hpos]; rfl
  rw [hmask]
  cases q with
  | ofNat m =>
    change ((m &&& (2 ^ k - 1) : Nat) : Int) = (m : Int) % 2 ^ k
    rw [Nat.and_two_pow_sub_one_eq_mod]
    push_cast
    rfl
  | negSucc m =>
    change ((without (2 ^ k - 1) m : Nat) : Int) = _
    have hlt := Nat.mod_lt m hpos
    rw [without_mask, Int.negSucc_emod _ (by positivity), Nat.cast_sub (by omega)]
    push_cast
    ring

end Bitwise

namespace FixedPoint

variable {p : Params}

theorem scaledProduct_bounds (acc : Int) :
    0x80000000 * scaledProduct p acc ≤ acc * p.multiplier + 0x40000000 ∧
      acc * p.multiplier + 0x40000000 < 0x80000000 * scaledProduct p acc + 0x80000000 := by
  have h : scaledProduct p acc = (acc * p.multiplier + 0x40000000) / 0x80000000 :=
    Int.shiftRight_eq_div_pow _ 31
  rw [h]
  generalize acc * p.multiplier + 0x40000000 = x
  omega

theorem roundingShift_eq (hp : p.Sound) (q : Int) :
    roundingShift p q = q / 2 ^ p.shift.toNat +
      if (2 ^ p.shift.toNat - 1) / 2 < q % 2 ^ p.shift.toNat - (if q < 0 then 1 else 0) then 1
      else 0 := by
  rw [roundingShift, hp.threshold_eq, hp.mask_eq, Bitwise.conjunction_mask,
    Int.shiftRight_eq_div_pow]
  push_cast
  rfl

theorem roundingShift_of_shift_eq_zero (hp : p.Sound) (h : p.shift = 0) (q : Int) :
    roundingShift p q = q := by
  rw [roundingShift_eq hp, h]
  simp only [Int.toNat_zero, pow_zero, Int.ediv_one, Int.emod_one]
  split_ifs <;> omega

theorem exists_two_pow_shift (hp : p.Sound) (h : p.shift ≠ 0) :
    ∃ e : Int, 0 < e ∧ (2 : Int) ^ p.shift.toNat = 2 * e := by
  have hshift := hp.shift_nonneg
  refine ⟨2 ^ (p.shift.toNat - 1), by positivity, ?_⟩
  rw [← pow_succ']
  congr 1
  omega

/-- The shift rounds to the nearest integer, a half away from zero. -/
theorem roundingShift_bounds (hp : p.Sound) {e : Int} (he : 0 < e)
    (h : (2 : Int) ^ p.shift.toNat = 2 * e) (q : Int) :
    (0 ≤ q → e * (2 * roundingShift p q - 1) ≤ q ∧ q < e * (2 * roundingShift p q + 1)) ∧
      (q ≤ 0 → e * (2 * roundingShift p q - 1) < q ∧ q ≤ e * (2 * roundingShift p q + 1)) := by
  rw [roundingShift_eq hp, h]
  have hdiv := Int.mul_ediv_add_emod q (2 * e)
  have hlow := Int.emod_nonneg q (b := 2 * e) (by omega)
  have hhigh := Int.emod_lt_of_pos q (b := 2 * e) (by omega)
  have hhalf : (2 * e - 1) / 2 = e - 1 := by omega
  rw [hhalf]
  generalize q % (2 * e) = r at *
  generalize q / (2 * e) = a at *
  have hexpand : ∀ b : Int, e * (2 * (a + b) - 1) = 2 * e * a + 2 * (e * b) - e ∧
      e * (2 * (a + b) + 1) = 2 * e * a + 2 * (e * b) + e := fun b ↦ by constructor <;> ring
  have hzero : q = 0 → r = 0 := by
    intro hq
    rw [hq] at hdiv
    have hprod : 2 * e * a = -r := by omega
    by_contra hr
    have ha : a < 0 := by
      by_contra ha
      have := mul_nonneg (by omega : (0 : Int) ≤ 2 * e) (not_lt.1 ha)
      omega
    have := mul_le_mul_of_nonneg_left (by omega : a ≤ -1) (by omega : (0 : Int) ≤ 2 * e)
    omega
  rw [(hexpand _).1, (hexpand _).2]
  generalize 2 * e * a = x at *
  split_ifs <;> simp only [mul_one, mul_zero] <;> omega

/-- By how much the threshold of the rounding is moved towards zero. -/
def Params.slack (p : Params) : Rat := if p.shift = 0 then 0 else 1 / (2 * 2 ^ p.shift.toNat)

def Params.rescaled (p : Params) (acc : Int) : Int := roundingShift p (scaledProduct p acc)

theorem requantize_eq (p : Params) (acc : Int) :
    requantize p acc =
      min (max (p.rescaled acc) p.minLessZeroPoint) p.maxLessZeroPoint + p.zeroPoint := rfl

theorem scaledProduct_bounds_rat (acc : Int) :
    (scaledProduct p acc : Rat) ≤ acc * p.scale * 2 ^ p.shift.toNat + 1 / 2 ∧
      acc * p.scale * 2 ^ p.shift.toNat + 1 / 2 < scaledProduct p acc + 1 := by
  obtain ⟨hlow, hhigh⟩ := scaledProduct_bounds (p := p) acc
  have hscale : (acc : Rat) * p.scale * 2 ^ p.shift.toNat = acc * p.multiplier / 0x80000000 := by
    rw [Params.scale, pow_add]
    field_simp
    norm_num
  have hlow' : (0x80000000 * scaledProduct p acc : Rat) ≤ acc * p.multiplier + 0x40000000 := by
    exact_mod_cast hlow
  have hhigh' : (acc * p.multiplier + 0x40000000 : Rat) <
      0x80000000 * scaledProduct p acc + 0x80000000 := by exact_mod_cast hhigh
  rw [hscale]
  constructor <;> linarith

theorem scale_pos (hp : p.Sound) : 0 < p.scale := by
  have h : (0 : Rat) < p.multiplier := by
    have := hp.multiplier_ge
    exact_mod_cast (by omega : 0 < p.multiplier)
  exact div_pos h (by positivity)

theorem slack_nonneg (p : Params) : 0 ≤ p.slack := by
  unfold Params.slack
  split_ifs <;> positivity

theorem rescaled_eq_floor (hp : p.Sound) (acc : Int) :
    p.rescaled acc =
      ⌊acc * p.scale + 1 / 2 + (if acc < 0 then -p.slack else p.slack)⌋ := by
  obtain ⟨hlow, hhigh⟩ := scaledProduct_bounds_rat (p := p) acc
  rw [eq_comm, Int.floor_eq_iff, Params.rescaled]
  by_cases hshift : p.shift = 0
  · rw [roundingShift_of_shift_eq_zero hp hshift, Params.slack, if_pos hshift]
    simp only [hshift, Int.toNat_zero, pow_zero, mul_one, neg_zero, ite_self,
      add_zero] at hlow hhigh ⊢
    exact ⟨hlow, hhigh⟩
  obtain ⟨e, he, hpow⟩ := exists_two_pow_shift hp hshift
  obtain ⟨hnonneg, hnonpos⟩ := roundingShift_bounds hp he hpow (scaledProduct p acc)
  have hscale := scale_pos hp
  have he' : (0 : Rat) < e := by exact_mod_cast he
  have hpow' : (2 : Rat) ^ p.shift.toNat = 2 * e := by exact_mod_cast hpow
  rw [hpow'] at hlow hhigh
  rw [Params.slack, if_neg hshift, hpow']
  generalize roundingShift p (scaledProduct p acc) = n at *
  generalize scaledProduct p acc = q at *
  -- multiplied by the divisor `2 * e`, everything is linear in `e * n` and the scaled accumulator
  have hscaled : ∀ t : Rat, (acc * p.scale + 1 / 2 + t) * (2 * e) =
      acc * p.scale * (2 * e) + e + t * (2 * e) := fun t ↦ by ring
  have hcancel : 1 / (2 * (2 * e)) * (2 * e) = (1 / 2 : Rat) := by field_simp
  rw [← mul_le_mul_iff_left₀ (by positivity : (0 : Rat) < 2 * e),
    ← mul_lt_mul_iff_left₀ (by positivity : (0 : Rat) < 2 * e)]
  rcases lt_or_ge acc 0 with hacc | hacc
  · have hneg : (acc : Rat) * p.scale * (2 * e) < 0 := by
      have : (acc : Rat) < 0 := by exact_mod_cast hacc
      exact mul_neg_of_neg_of_pos (mul_neg_of_neg_of_pos this hscale) (by positivity)
    have hq : q ≤ 0 := by
      have : (q : Rat) < 1 := by linarith
      have : q < 1 := by exact_mod_cast this
      omega
    obtain ⟨h₁, h₂⟩ := hnonpos hq
    have h₁' : (e * (2 * n - 1) + 1 : Rat) ≤ q := by exact_mod_cast h₁
    have h₂' : (q : Rat) ≤ e * (2 * n + 1) := by exact_mod_cast h₂
    rw [if_pos hacc, hscaled, neg_mul, hcancel]
    constructor <;> nlinarith
  · have hpos : (0 : Rat) ≤ acc * p.scale * (2 * e) := by
      have : (0 : Rat) ≤ acc := by exact_mod_cast hacc
      positivity
    have hq : 0 ≤ q := by
      have : (-1 : Rat) < q := by linarith
      have : -1 < q := by exact_mod_cast this
      omega
    obtain ⟨h₁, h₂⟩ := hnonneg hq
    have h₁' : (e * (2 * n - 1) : Rat) ≤ q := by exact_mod_cast h₁
    have h₂' : (q + 1 : Rat) ≤ e * (2 * n + 1) := by exact_mod_cast h₂
    rw [if_neg (not_lt.2 hacc), hscaled, hcancel]
    constructor <;> nlinarith

theorem requantize_mem (hp : p.Sound) (acc : Int) :
    p.qmin ≤ requantize p acc ∧ requantize p acc ≤ p.qmax := by
  have := hp.qmin_le_qmax
  rw [requantize_eq, Params.minLessZeroPoint, Params.maxLessZeroPoint]
  omega

end FixedPoint

end Depthwise
