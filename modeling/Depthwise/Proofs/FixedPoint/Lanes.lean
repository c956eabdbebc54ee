import Depthwise.Proofs.FixedPoint.Rounding

namespace Depthwise.FixedPoint

def FitsWord (n : Int) : Prop := -0x8000000000000000 ≤ n ∧ n < 0x8000000000000000

theorem bmod_of_fits {n : Int} (h : FitsWord n) : n.bmod (2 ^ 64) = n := by
  obtain ⟨hlow, hhigh⟩ := h
  exact Int.bmod_eq_of_le (by norm_num; omega) (by norm_num; omega)

theorem toInt_ofInt {n : Int} (h : FitsWord n) : (Int64.ofInt n).toInt = n := by
  rw [Int64.toInt_ofInt]
  exact bmod_of_fits h

theorem toInt_add {a b : Int64} (h : FitsWord (a.toInt + b.toInt)) :
    (a + b).toInt = a.toInt + b.toInt := by
  rw [Int64.toInt_add, bmod_of_fits h]

theorem toInt_sub {a b : Int64} (h : FitsWord (a.toInt - b.toInt)) :
    (a - b).toInt = a.toInt - b.toInt := by
  rw [Int64.toInt_sub, bmod_of_fits h]

theorem toInt_mul {a b : Int64} (h : FitsWord (a.toInt * b.toInt)) :
    (a * b).toInt = a.toInt * b.toInt := by
  rw [Int64.toInt_mul, bmod_of_fits h]

theorem toInt_bit (c : Prop) [Decidable c] :
    (if c then 1 else 0 : Int64).toInt = if c then 1 else 0 := by
  split_ifs <;> rfl

theorem toInt_shiftRight {a b : Int64} {k : Nat} (hb : b.toInt = k) (hk : k < 64) :
    (a >>> b).toInt = a.toInt / 2 ^ k := by
  have hamount : (b.toBitVec.smod 64).toInt = k := by
    rw [BitVec.toInt_smod, Int64.toInt_toBitVec, hb]
    change (k : Int).fmod 64 = k
    rw [Int.fmod_eq_emod_of_nonneg _ (by norm_num)]
    omega
  have hnat : (b.toBitVec.smod 64).toNat = k := by
    have h := BitVec.toInt_eq_toNat_cond (b.toBitVec.smod 64)
    have hlt := (b.toBitVec.smod 64).isLt
    rw [hamount] at h
    split_ifs at h <;> omega
  rw [← Int64.toInt_toBitVec, Int64.toBitVec_shiftRight, BitVec.sshiftRight_eq', hnat,
    BitVec.toInt_sshiftRight, Int64.toInt_toBitVec, Int.shiftRight_eq_div_pow]
  push_cast
  rfl

theorem toInt_and_mask {a b : Int64} {k : Nat} (hb : b.toInt = 2 ^ k - 1) (hk : k < 63) :
    (a &&& b).toInt = a.toInt % 2 ^ k := by
  have hpow : (2 : Nat) ^ k < 2 ^ 63 := Nat.pow_lt_pow_right (by norm_num) hk
  have hpos : 0 < 2 ^ k := Nat.two_pow_pos k
  have hbnat : b.toBitVec.toNat = 2 ^ k - 1 := by
    have h := BitVec.toInt_eq_toNat_cond b.toBitVec
    have hlt := b.toBitVec.isLt
    rw [Int64.toInt_toBitVec, hb] at h
    have hcast : ((2 ^ k : Nat) : Int) = 2 ^ k := by push_cast; rfl
    split_ifs at h <;> omega
  have hand : (a &&& b).toBitVec.toNat = a.toBitVec.toNat % 2 ^ k := by
    rw [Int64.toBitVec_and, BitVec.toNat_and, hbnat, Nat.and_two_pow_sub_one_eq_mod]
  have hmod := Nat.mod_lt a.toBitVec.toNat hpos
  have hdvd : (2 ^ k : Int) ∣ 18446744073709551616 := by
    simpa using pow_dvd_pow (2 : Int) (show k ≤ 64 by omega)
  have ha : a.toInt % 2 ^ k = (a.toBitVec.toNat : Int) % 2 ^ k := by
    rw [← Int64.toInt_toBitVec, BitVec.toInt_eq_toNat_cond]
    split_ifs
    · rfl
    · push_cast
      rw [Int.sub_emod, Int.emod_eq_zero_of_dvd hdvd, sub_zero, Int.emod_emod]
  rw [← Int64.toInt_toBitVec, BitVec.toInt_eq_toNat_of_lt (by rw [hand]; omega), hand, ha]
  push_cast
  rfl

variable {p : Params}

def Params.words (p : Params) : WordParams where
  multiplier := .ofInt p.multiplier
  shift := .ofInt p.shift
  remainderMask := .ofInt p.remainderMask
  remainderThreshold := p.remainderThreshold
  zeroPoint := .ofInt p.zeroPoint
  qmin? := some (.ofInt p.qmin)
  qmax? := some (.ofInt p.qmax)

theorem word?_of_fits {n : Int} (h : FitsWord n) : word? n = .ok (.ofInt n) := if_pos h

theorem mask_bounds (hp : p.Sound) : 0 ≤ p.remainderMask ∧ p.remainderMask < 0x80000000 := by
  have hshift := hp.shift_lt
  have hpow : (2 : Nat) ^ p.shift.toNat ≤ 2 ^ 31 := Nat.pow_le_pow_right (by norm_num) (by omega)
  have hpos := Nat.two_pow_pos p.shift.toNat
  have hcast : ((2 ^ p.shift.toNat : Nat) : Int) = 2 ^ p.shift.toNat := by push_cast; rfl
  rw [hp.mask_eq, ← hcast]
  omega

theorem ofParams_eq (hp : p.Sound) : WordParams.ofParams p = .ok p.words := by
  have hmask := mask_bounds hp
  have := hp.multiplier_ge
  have := hp.multiplier_lt
  have := hp.shift_nonneg
  have := hp.shift_lt
  have := hp.zeroPoint_nonneg
  have := hp.zeroPoint_le
  have := hp.qmin_nonneg
  have := hp.qmin_le_qmax
  have := hp.qmax_le
  have hlow : lowerBound? p.qmin = .ok (some (.ofInt p.qmin)) := by
    rw [lowerBound?, if_neg (by omega), word?_of_fits ⟨by omega, by omega⟩]
    rfl
  have hhigh : upperBound? p.qmax = .ok (some (.ofInt p.qmax)) := by
    rw [upperBound?, if_neg (by omega), word?_of_fits ⟨by omega, by omega⟩]
    rfl
  unfold WordParams.ofParams
  rw [word?_of_fits ⟨by omega, by omega⟩, word?_of_fits ⟨by omega, by omega⟩,
    word?_of_fits ⟨by omega, by omega⟩, word?_of_fits ⟨by omega, by omega⟩, hlow, hhigh]
  rfl

theorem scaledProduct_abs_le (hp : p.Sound) {acc : Int} (h : |acc| ≤ 0x100000000) :
    FitsWord (acc * p.multiplier) ∧ FitsWord (acc * p.multiplier + 0x40000000) ∧
      -0x100000000 ≤ scaledProduct p acc ∧ scaledProduct p acc ≤ 0x100000000 := by
  obtain ⟨hlow, hhigh⟩ := scaledProduct_bounds (p := p) acc
  obtain ⟨hacc, hacc'⟩ := abs_le.1 h
  have hm := hp.multiplier_ge
  have hm' : p.multiplier ≤ 0x7fffffff := by have := hp.multiplier_lt; omega
  have hle : acc * p.multiplier ≤ 0x100000000 * 0x7fffffff := by nlinarith
  have hge : -(0x100000000 * 0x7fffffff) ≤ acc * p.multiplier := by nlinarith
  unfold FitsWord
  generalize acc * p.multiplier = x at *
  omega

theorem multiplier_word (hp : p.Sound) : (Int64.ofInt p.multiplier).toInt = p.multiplier := by
  have := hp.multiplier_ge
  have := hp.multiplier_lt
  exact toInt_ofInt ⟨by omega, by omega⟩

theorem shift_word (hp : p.Sound) : (Int64.ofInt p.shift).toInt = p.shift.toNat := by
  have := hp.shift_nonneg
  have := hp.shift_lt
  rw [toInt_ofInt ⟨by omega, by omega⟩]
  omega

theorem mask_word (hp : p.Sound) :
    (Int64.ofInt p.remainderMask).toInt = 2 ^ p.shift.toNat - 1 := by
  have := mask_bounds hp
  rw [toInt_ofInt ⟨by omega, by omega⟩, hp.mask_eq]

theorem toInt_scaledProduct (hp : p.Sound) {acc : Int64} (h : |acc.toInt| ≤ 0x100000000) :
    ((acc * Int64.ofInt p.multiplier + 0x40000000) >>> (31 : Int64)).toInt =
      scaledProduct p acc.toInt := by
  obtain ⟨hfits, hfits', -⟩ := scaledProduct_abs_le hp h
  have hmul := multiplier_word hp
  have hhalf : (0x40000000 : Int64).toInt = 0x40000000 := rfl
  have hproduct : (acc * Int64.ofInt p.multiplier).toInt = acc.toInt * p.multiplier := by
    rw [toInt_mul (by rwa [hmul]), hmul]
  rw [toInt_shiftRight (k := 31) rfl (by norm_num), toInt_add (by rwa [hproduct, hhalf]),
    hproduct, hhalf]
  exact (Int.shiftRight_eq_div_pow _ 31).symm

theorem toInt_and_remainderMask (hp : p.Sound) (q : Int64) :
    (q &&& Int64.ofInt p.remainderMask).toInt = q.toInt % 2 ^ p.shift.toNat :=
  toInt_and_mask (mask_word hp) (by have := hp.shift_lt; omega)

theorem fits_remainder (hp : p.Sound) (q : Int64) :
    FitsWord ((q &&& Int64.ofInt p.remainderMask).toInt - if q < 0 then 1 else 0) := by
  have hmask := mask_bounds hp
  have hpow : (2 : Int) ^ p.shift.toNat = p.remainderMask + 1 := by rw [hp.mask_eq]; ring
  have hlow := Int.emod_nonneg q.toInt (b := 2 ^ p.shift.toNat) (by omega)
  have hhigh := Int.emod_lt_of_pos q.toInt (b := 2 ^ p.shift.toNat) (by omega)
  rw [toInt_and_remainderMask hp]
  unfold FitsWord
  split_ifs <;> omega

theorem toInt_remainder (hp : p.Sound) (q : Int64) :
    ((q &&& Int64.ofInt p.remainderMask) - if q < 0 then 1 else 0).toInt =
      Bitwise.conjunction q.toInt p.remainderMask - if q.toInt < 0 then 1 else 0 := by
  have hneg : (q < 0) = (q.toInt < 0) := by
    rw [Int64.lt_iff_toInt_lt]
    rfl
  have hbit := toInt_bit (q < 0)
  rw [toInt_sub (by rw [hbit]; exact fits_remainder hp q), toInt_and_remainderMask hp, hbit,
    hp.mask_eq, Bitwise.conjunction_mask]
  simp only [hneg]

theorem roundingShift_abs_le {q : Int} (h : |q| ≤ 0x100000000) :
    |q >>> p.shift.toNat| ≤ 0x100000000 ∧ |roundingShift p q| ≤ 0x100000001 := by
  obtain ⟨hlow, hhigh⟩ := abs_le.1 h
  have hpos : (1 : Int) ≤ 2 ^ p.shift.toNat := by
    have := Int.pow_pos (n := 2) (m := p.shift.toNat) (by norm_num)
    omega
  have hdiv : |q >>> p.shift.toNat| ≤ 0x100000000 := by
    rw [Int.shiftRight_eq_div_pow, abs_le]
    push_cast
    exact ⟨(Int.le_ediv_iff_mul_le (by omega)).2 (by nlinarith),
      Int.ediv_le_of_le_mul (by omega) (by nlinarith)⟩
  refine ⟨hdiv, ?_⟩
  rw [abs_le] at hdiv ⊢
  unfold roundingShift
  dsimp only
  split_ifs <;> omega

theorem toInt_shiftWord (hp : p.Sound) (q : Int64) :
    (shiftWord q (Int64.ofInt p.shift)).toInt = q.toInt >>> p.shift.toNat := by
  have hshift := hp.shift_nonneg
  have hshift' := hp.shift_lt
  have hword := shift_word hp
  rw [shiftWord, if_pos, toInt_shiftRight hword (by omega), Int.shiftRight_eq_div_pow]
  · push_cast
    rfl
  · rw [Int64.le_iff_toInt_le, Int64.lt_iff_toInt_lt, hword]
    change (0 : Int) ≤ _ ∧ _ < (64 : Int)
    omega

theorem fits_roundingShift (hp : p.Sound) {q : Int64} (h : |q.toInt| ≤ 0x100000000) (c : Prop)
    [Decidable c] :
    FitsWord ((shiftWord q (Int64.ofInt p.shift)).toInt + if c then 1 else 0) := by
  obtain ⟨hbound, -⟩ := roundingShift_abs_le (p := p) h
  rw [toInt_shiftWord hp]
  rw [abs_le] at hbound
  unfold FitsWord
  split_ifs <;> omega

theorem toInt_roundingShift (hp : p.Sound) {q : Int64} (h : |q.toInt| ≤ 0x100000000) :
    (shiftWord q (Int64.ofInt p.shift) +
      if p.remainderThreshold < ((q &&& Int64.ofInt p.remainderMask) -
        if q < 0 then 1 else 0).toInt then 1 else 0).toInt = roundingShift p q.toInt := by
  rw [toInt_add (by rw [toInt_bit]; exact fits_roundingShift hp h _), toInt_shiftWord hp,
    toInt_bit, toInt_remainder hp]
  rfl

theorem zeroPoint_word (hp : p.Sound) : (Int64.ofInt p.zeroPoint).toInt = p.zeroPoint := by
  have := hp.zeroPoint_nonneg
  have := hp.zeroPoint_le
  exact toInt_ofInt ⟨by omega, by omega⟩

theorem fits_moved (hp : p.Sound) {n : Int} (h : |n| ≤ 0x100000001) :
    FitsWord (n + p.zeroPoint) := by
  have hz := hp.zeroPoint_nonneg
  have hz' := hp.zeroPoint_le
  rw [abs_le] at h
  unfold FitsWord
  omega

/-- A lane computes the exact code. -/
theorem lane_eq (hp : p.Sound) {acc : Int64} (h : |acc.toInt| ≤ 0x100000000) :
    (p.words.lane acc).toInt = requantize p acc.toInt := by
  have hq := toInt_scaledProduct hp h
  have hqbound : |scaledProduct p acc.toInt| ≤ 0x100000000 :=
    abs_le.2 (scaledProduct_abs_le hp h).2.2
  obtain ⟨-, hnbound⟩ := roundingShift_abs_le (p := p) hqbound
  have hn := toInt_roundingShift hp (by rwa [hq])
  rw [hq] at hn
  unfold WordParams.lane Params.words
  dsimp only
  generalize shiftWord _ (Int64.ofInt p.shift) + (_ : Int64) = n at hn ⊢
  have hqmin := hp.qmin_nonneg
  have hqmm := hp.qmin_le_qmax
  have hqmax := hp.qmax_le
  have hzWord := zeroPoint_word hp
  have hlowWord : (Int64.ofInt p.qmin).toInt = p.qmin := toInt_ofInt ⟨by omega, by omega⟩
  have hhighWord : (Int64.ofInt p.qmax).toInt = p.qmax := toInt_ofInt ⟨by omega, by omega⟩
  have hv : (n + Int64.ofInt p.zeroPoint).toInt = p.rescaled acc.toInt + p.zeroPoint := by
    rw [toInt_add (by rw [hn, hzWord]; exact fits_moved hp hnbound), hn, hzWord, Params.rescaled]
  -- clamping after the zero point is added is clamping before
  simp only [Option.map_some, Option.getD_some]
  rw [requantize_eq, Params.minLessZeroPoint, Params.maxLessZeroPoint]
  split_ifs with h₁ h₂ h₂ <;>
    simp only [Int64.lt_iff_toInt_lt, hv, hlowWord, hhighWord] at h₁ h₂ ⊢ <;> omega

theorem store_eq (hp : p.Sound) {acc : Int64} (h : |acc.toInt| ≤ 0x100000000) :
    p.words.store acc = UInt8.ofInt (requantize p acc.toInt) := by
  rw [WordParams.store, lane_eq hp h]

def Params.code (p : Params) (acc : Int) : UInt8 := UInt8.ofNat (requantize p acc).toNat

theorem toNat_code (hp : p.Sound) (acc : Int) : ((p.code acc).toNat : Int) = requantize p acc := by
  obtain ⟨hlow, hhigh⟩ := requantize_mem hp acc
  have := hp.qmin_nonneg
  have := hp.qmax_le
  rw [Params.code, UInt8.toNat_ofNat_of_lt' (by change _ < 256; omega)]
  omega

/-- For accumulators that fit in 33 bits the vector form stores the same byte. -/
theorem store_eq_code (hp : p.Sound) {acc : Int64} (h : |acc.toInt| ≤ 0x100000000) :
    p.words.store acc = p.code acc.toInt := by
  obtain ⟨hlow, hhigh⟩ := requantize_mem hp acc.toInt
  have := hp.qmin_nonneg
  have := hp.qmax_le
  rw [store_eq hp h, Params.code, UInt8.ofInt, Int.emod_eq_of_lt (by omega) (by norm_num; omega)]

end Depthwise.FixedPoint
