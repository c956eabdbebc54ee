import Depthwise.FixedPoint.Params
import Depthwise.Proofs.Binary.Values

namespace Depthwise.FixedPoint

open Binary

/-- What a parameter routine promises of a parameter set. -/
structure Params.Sound (p : Params) : Prop where
  multiplier_ge : 0x40000000 ≤ p.multiplier
  multiplier_lt : p.multiplier < 0x80000000
  shift_nonneg : 0 ≤ p.shift
  shift_lt : p.shift < 32
  mask_eq : p.remainderMask = 2 ^ p.shift.toNat - 1
  threshold_eq : p.remainderThreshold = p.remainderMask / 2
  zeroPoint_nonneg : 0 ≤ p.zeroPoint
  zeroPoint_le : p.zeroPoint ≤ 255
  qmin_nonneg : 0 ≤ p.qmin
  qmin_le_qmax : p.qmin ≤ p.qmax
  qmax_le : p.qmax ≤ 255

def Params.scale (p : Params) : Rat := p.multiplier / 2 ^ (31 + p.shift.toNat)

theorem leastScale_spec : leastScale.isFinite = true ∧ leastScale.toRat = 1 / 2 ^ 32 := by
  have hbits : |(1 / 0x100000000 : Rat)| = (1 : Nat) * 2 ^ (-32 : Int) := by
    rw [abs_of_nonneg (by norm_num)]
    norm_num
  obtain ⟨hfin, hval⟩ := ofRat_spec (F := .single) (x := 1 / 0x100000000) (by
    rw [abs_of_nonneg (by norm_num)]
    exact lt_limit_of_bits (by norm_num [Format.single]) (by decide))
  refine ⟨hfin, ?_⟩
  rw [leastScale, hval, Format.round_of_bits hbits (by decide) (by decide)]
  norm_num

theorem one_spec : (ofInt 1 : Single).isFinite = true ∧ (ofInt 1 : Single).toRat = 1 := by
  have h := toRat_ofInt (F := .single) (n := 1) (by decide) (by decide) (by decide)
  simpa using h

/-- A scale in range has a full significand, and an exponent that the shift can make up for. -/
theorem finite_scale_bounds {s : Bool} {m : Nat} {e : Int} {h : Format.single.Canonical m e}
    (hlow : 1 / 2 ^ 32 ≤ (finite s m e h).toRat) (hhigh : (finite s m e h).toRat < 1) :
    s = false ∧ 0x800000 ≤ m ∧ m < 0x1000000 ∧ -56 < e ∧ e < -23 := by
  have hpos : (0 : Rat) < (finite s m e h).toRat := lt_of_lt_of_le (by norm_num) hlow
  have hs : s = false := by
    cases s with
    | false => rfl
    | true =>
      rw [toRat_finite, sign, if_pos rfl] at hpos
      have : (0 : Rat) ≤ m * 2 ^ e := by positivity
      linarith
  subst hs
  rw [toRat_finite, sign, if_neg (by simp), one_mul] at hlow hhigh
  have hm : m < 0x1000000 := h.1
  have hm' : (m : Rat) < 2 ^ (24 : Int) := by norm_num; exact_mod_cast hm
  have hlowExp : -56 < e := by
    have : (2 : Rat) ^ (-32 : Int) < 2 ^ (24 + e) := by
      calc (2 : Rat) ^ (-32 : Int) ≤ m * 2 ^ e := by norm_num at hlow ⊢; exact hlow
        _ < 2 ^ (24 : Int) * 2 ^ e := by gcongr
        _ = _ := (zpow_add₀ two_ne_zero _ _).symm
    have := (zpow_lt_zpow_iff_right₀ (by norm_num)).1 this
    omega
  have hfull : 0x800000 ≤ m := by
    rcases h.2.2.2 with hfull | hmin
    · exact hfull
    · change e = -149 at hmin
      omega
  have hfull' : (2 : Rat) ^ (23 : Int) ≤ m := by norm_num; exact_mod_cast hfull
  have hhighExp : e < -23 := by
    have : (2 : Rat) ^ (23 + e) < 2 ^ (0 : Int) := by
      calc (2 : Rat) ^ (23 + e) = 2 ^ (23 : Int) * 2 ^ e := zpow_add₀ two_ne_zero _ _
        _ ≤ m * 2 ^ e := by gcongr
        _ < 1 := hhigh
        _ = _ := (zpow_zero _).symm
    have := (zpow_lt_zpow_iff_right₀ (by norm_num)).1 this
    omega
  exact ⟨rfl, hfull, hm, hlowExp, hhighExp⟩

theorem decompose_ok {y : Single} (hfin : y.isFinite = true) (hlow : 1 / 2 ^ 32 ≤ y.toRat)
    (hhigh : y.toRat < 1) :
    ∃ multiplier shift, decompose y = .ok (multiplier, shift) ∧ 0x40000000 ≤ multiplier ∧
      multiplier < 0x80000000 ∧ 0 ≤ shift ∧ shift < 32 ∧
      (multiplier : Rat) / 2 ^ (31 + shift.toNat) = y.toRat := by
  obtain ⟨s, m, e, hc, rfl⟩ := exists_of_isFinite hfin
  obtain ⟨rfl, hm, hm', he, he'⟩ := finite_scale_bounds hlow hhigh
  have hle : leastScale.le (finite false m e hc) = true := by
    rw [le_eq leastScale_spec.1 rfl, leastScale_spec.2]
    exact decide_eq_true hlow
  have hlt : (finite false m e hc).lt (ofInt 1) = true := by
    rw [lt_eq rfl one_spec.1, one_spec.2]
    exact decide_eq_true hhigh
  refine ⟨m * 128, -24 - e, ?_, by omega, by omega, by omega, by omega, ?_⟩
  · have hshift : 0 ≤ shiftOf (finite false m e hc) ∧ shiftOf (finite false m e hc) < 32 := by
      change 0 ≤ -24 - e ∧ -24 - e < 32
      omega
    unfold decompose
    rw [hle, hlt, if_neg (by decide), if_neg (by decide)]
    exact if_pos hshift
  · have hexp : ((31 + (-24 - e).toNat : Nat) : Int) = 7 - e := by omega
    rw [toRat_finite, sign, if_neg (by simp), one_mul, ← zpow_natCast, hexp,
      zpow_sub₀ two_ne_zero]
    push_cast
    field_simp

/-- Both comparisons are false of what is not a number, and each is false of one infinity. -/
theorem bounds_of_compare {y : Single} (hle : leastScale.le y = true)
    (hlt : y.lt (ofInt 1) = true) :
    y.isFinite = true ∧ 1 / 2 ^ 32 ≤ y.toRat ∧ y.toRat < 1 := by
  have hfin : y.isFinite = true := by
    obtain ⟨s₁, m₁, e₁, hc₁, h₁⟩ := exists_of_isFinite leastScale_spec.1
    obtain ⟨s₂, m₂, e₂, hc₂, h₂⟩ := exists_of_isFinite one_spec.1
    rw [h₁] at hle
    rw [h₂] at hlt
    cases y with
    | nan => simp [lt] at hlt
    | infinite s => cases s <;> simp [le, lt, isNaN] at hle hlt
    | finite s m e hc => rfl
  rw [le_eq leastScale_spec.1 hfin, leastScale_spec.2, decide_eq_true_eq] at hle
  rw [lt_eq hfin one_spec.1, one_spec.2, decide_eq_true_eq] at hlt
  exact ⟨hfin, hle, hlt⟩

theorem bounds_of_decompose {y : Single} {r : Int × Int} (h : decompose y = .ok r) :
    y.isFinite = true ∧ 1 / 2 ^ 32 ≤ y.toRat ∧ y.toRat < 1 := by
  unfold decompose at h
  split_ifs at h with hle hlt
  exact bounds_of_compare (by simpa using hle) (by simpa using hlt)

theorem mask_eq (shift : Nat) : ((1 <<< shift : Nat) : Int) - 1 = 2 ^ shift - 1 := by
  rw [Nat.one_shiftLeft]
  push_cast
  rfl

variable {path : Path} {scale : Double} {zeroPoint qmin qmax : Int}

theorem derive_ok (hz : 0 ≤ zeroPoint ∧ zeroPoint ≤ 255)
    (hq : 0 ≤ qmin ∧ qmin ≤ qmax ∧ qmax ≤ 255) (hfin : (scale.convert : Single).isFinite = true)
    (hlow : 1 / 2 ^ 32 ≤ (scale.convert : Single).toRat)
    (hhigh : (scale.convert : Single).toRat < 1) :
    ∃ p, derive path scale zeroPoint qmin qmax = .ok p ∧ p.Sound ∧
      p.scale = (scale.convert : Single).toRat ∧ p.zeroPoint = zeroPoint ∧ p.qmin = qmin ∧
      p.qmax = qmax := by
  obtain ⟨m, k, hdec, hm, hm', hk, hk', hscale⟩ := decompose_ok hfin hlow hhigh
  refine ⟨⟨m, k, ((1 <<< k.toNat : Nat) : Int) - 1, (((1 <<< k.toNat : Nat) : Int) - 1) / 2,
    zeroPoint, qmin, qmax, path⟩, ?_, ?_, hscale, rfl, rfl, rfl⟩
  · unfold derive
    rw [if_neg (not_not.2 hz), if_neg (not_not.2 hq), hdec]
    rfl
  · exact ⟨hm, hm', hk, hk', mask_eq _, rfl, hz.1, hz.2, hq.1, hq.2.1, hq.2.2⟩

theorem bounds_of_derive {p : Params} (h : derive path scale zeroPoint qmin qmax = .ok p) :
    (0 ≤ zeroPoint ∧ zeroPoint ≤ 255) ∧ (0 ≤ qmin ∧ qmin ≤ qmax ∧ qmax ≤ 255) ∧
      (scale.convert : Single).isFinite = true ∧ 1 / 2 ^ 32 ≤ (scale.convert : Single).toRat ∧
      (scale.convert : Single).toRat < 1 := by
  unfold derive at h
  split_ifs at h with hz hq
  cases hdec : decompose scale.convert with
  | error e =>
    rw [hdec] at h
    cases h
  | ok r => exact ⟨hz, hq, bounds_of_decompose hdec⟩

/-- What a parameter routine returns stands for its arguments. -/
theorem derive_spec {p : Params} (h : derive path scale zeroPoint qmin qmax = .ok p) :
    p.Sound ∧ p.scale = (scale.convert : Single).toRat ∧ p.zeroPoint = zeroPoint ∧
      p.qmin = qmin ∧ p.qmax = qmax := by
  obtain ⟨hz, hq, hfin, hlow, hhigh⟩ := bounds_of_derive h
  obtain ⟨p', hp', hspec⟩ := @derive_ok path _ _ _ _ hz hq hfin hlow hhigh
  rw [h] at hp'
  cases hp'
  exact hspec

theorem derive_sound {p : Params} (h : derive path scale zeroPoint qmin qmax = .ok p) :
    p.Sound := (derive_spec h).1

end Depthwise.FixedPoint
