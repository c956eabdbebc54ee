import Depthwise.Proofs.FixedPoint.Lanes

namespace Depthwise.FixedPoint

namespace WordParams

variable (p : WordParams) (acc : Int64)

def productWord : Int64 := (acc * p.multiplier + 0x40000000) >>> 31

def remainderWord (q : Int64) : Int64 := (q &&& p.remainderMask) - if q < 0 then 1 else 0

def roundedWord (q : Int64) : Int64 :=
  shiftWord q p.shift + if p.remainderThreshold < (p.remainderWord q).toInt then 1 else 0

/-- No operation of a lane overflows: what it computes from its operands as integers is again a
word, the shift moves by less than the width of a word, and the last word is a byte. -/
structure Exact : Prop where
  product : FitsWord (acc.toInt * p.multiplier.toInt)
  half : FitsWord ((acc * p.multiplier).toInt + 0x40000000)
  remainder : FitsWord ((p.productWord acc &&& p.remainderMask).toInt -
    if p.productWord acc < 0 then 1 else 0)
  shift_range : 0 ≤ p.shift.toInt ∧ p.shift.toInt < 64
  rounded : FitsWord ((shiftWord (p.productWord acc) p.shift).toInt +
    if p.remainderThreshold < (p.remainderWord (p.productWord acc)).toInt then 1 else 0)
  moved : FitsWord ((p.roundedWord (p.productWord acc)).toInt + p.zeroPoint.toInt)
  stored : 0 ≤ (p.lane acc).toInt ∧ (p.lane acc).toInt < 256

end WordParams

section Sound

variable {p : Params} (hp : p.Sound)

include hp

theorem words_exact {acc : Int64} (h : |acc.toInt| ≤ 0x100000000) : p.words.Exact acc := by
  obtain ⟨hproduct, hhalf, hq⟩ := scaledProduct_abs_le hp h
  have hmul : p.words.multiplier.toInt = p.multiplier := multiplier_word hp
  have hshift : p.words.shift.toInt = p.shift.toNat := shift_word hp
  have hzero : p.words.zeroPoint.toInt = p.zeroPoint := zeroPoint_word hp
  have hword : (p.words.productWord acc).toInt = scaledProduct p acc.toInt :=
    toInt_scaledProduct hp h
  have hbound : |(p.words.productWord acc).toInt| ≤ 0x100000000 := by
    rw [hword]
    exact abs_le.2 hq
  have hrounded : (p.words.roundedWord (p.words.productWord acc)).toInt =
      roundingShift p (p.words.productWord acc).toInt := toInt_roundingShift hp hbound
  obtain ⟨hlow, hhigh⟩ := requantize_mem hp acc.toInt
  have hshift_lt := hp.shift_lt
  have hqmin := hp.qmin_nonneg
  have hqmax := hp.qmax_le
  refine ⟨?_, ?_, fits_remainder hp _, by omega, fits_roundingShift hp hbound _, ?_, ?_⟩
  · rwa [hmul]
  · rw [toInt_mul (by rwa [hmul]), hmul]
    exact hhalf
  · rw [hrounded, hzero]
    exact fits_moved hp (roundingShift_abs_le hbound).2
  · rw [lane_eq hp h]
    omega

theorem requantize?_eq (acc : Int) : requantize? p acc = .ok (requantize p acc) :=
  if_neg (not_lt.2 hp.shift_nonneg)

end Sound

theorem derive_bounds_eq {path : Path} {scale : Double} {zeroPoint qmin qmax : Int} {p : Params}
    (h : derive path scale zeroPoint qmin qmax = .ok p) : p.qmin = qmin ∧ p.qmax = qmax :=
  (derive_spec h).2.2.2

theorem toInt_ofInt_of_abs_le {a : Int} (h : |a| ≤ 2 ^ 32) :
    (Int64.ofInt a).toInt = a ∧ |(Int64.ofInt a).toInt| ≤ 0x100000000 := by
  have hrange := abs_le.1 h
  have hword : (Int64.ofInt a).toInt = a := toInt_ofInt ⟨by omega, by omega⟩
  rw [hword]
  exact ⟨rfl, h⟩

/-- The two forms of the requantization agree on all accumulators up to `2 ^ 32` in magnitude. -/
theorem requantizeLanes_eq_requantize {path : Path} {scale : Double} {zeroPoint qmin qmax : Int}
    {p : Params} (h : derive path scale zeroPoint qmin qmax = .ok p) (accs : List Int)
    (haccs : ∀ a ∈ accs, |a| ≤ 2 ^ 32) :
    ∃ (words : WordParams) (codes : List UInt8), WordParams.ofParams p = .ok words ∧
      requantizeLanes p (accs.map Int64.ofInt).toArray = .ok codes.toArray ∧
      codes.map (fun b ↦ (b.toNat : Int)) = accs.map (requantize p) ∧
      ∀ a ∈ accs, words.Exact (.ofInt a) ∧ requantize? p a = .ok (requantize p a) ∧
        qmin ≤ requantize p a ∧ requantize p a ≤ qmax := by
  have hp := derive_sound h
  obtain ⟨hmin, hmax⟩ := derive_bounds_eq h
  refine ⟨p.words, accs.map fun a ↦ p.words.store (.ofInt a), ofParams_eq hp, ?_, ?_, ?_⟩
  · rw [requantizeLanes, ofParams_eq hp]
    simp only [Except.map, List.map_toArray, List.map_map]
    rfl
  · rw [List.map_map]
    refine List.map_congr_left fun a ha ↦ ?_
    obtain ⟨hword, hle⟩ := toInt_ofInt_of_abs_le (haccs a ha)
    rw [Function.comp_apply, store_eq_code hp hle, toNat_code hp, hword]
  · intro a ha
    obtain ⟨hlow, hhigh⟩ := requantize_mem hp a
    exact ⟨words_exact hp (toInt_ofInt_of_abs_le (haccs a ha)).2, requantize?_eq hp a,
      hmin ▸ hlow, hmax ▸ hhigh⟩

/-- The largest significand with the largest shift. Its products come close to `2 ^ 63`. -/
def extremeParams : Params := ⟨2147483520, 31, 2147483647, 1073741823, 3, 2, 250, .scalar⟩

theorem requantizeLanes_eq_requantize_extreme :
    derive .scalar (.ofRat (16777215 / 36028797018963968)) 3 2 250 = .ok extremeParams ∧
      ∃ (words : WordParams) (codes : List UInt8), WordParams.ofParams extremeParams = .ok words ∧
        requantizeLanes extremeParams
          ([2 ^ 32, -2 ^ 32, 2 ^ 31 - 1, -2 ^ 31, 2 ^ 30, 0].map Int64.ofInt).toArray =
            .ok codes.toArray ∧
        codes.map (fun b ↦ (b.toNat : Int)) =
          [2 ^ 32, -2 ^ 32, 2 ^ 31 - 1, -2 ^ 31, 2 ^ 30, 0].map (requantize extremeParams) ∧
        ∀ a ∈ [2 ^ 32, -2 ^ 32, 2 ^ 31 - 1, -2 ^ 31, 2 ^ 30, 0],
          words.Exact (.ofInt a) ∧ requantize? extremeParams a = .ok (requantize extremeParams a) ∧
          2 ≤ requantize extremeParams a ∧ requantize extremeParams a ≤ 250 := by
  have hparams : derive .scalar (.ofRat (16777215 / 36028797018963968)) 3 2 250 =
      .ok extremeParams := by decide +kernel
  exact ⟨hparams, requantizeLanes_eq_requantize hparams _ (by decide)⟩

end Depthwise.FixedPoint
