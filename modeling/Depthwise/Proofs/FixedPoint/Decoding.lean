import Depthwise.Binary.Interchange
import Depthwise.Parameters
import Depthwise.Proofs.Binary.Conversion
import Depthwise.Proofs.FixedPoint.Scale
import Depthwise.Proofs.Text

namespace Depthwise.FixedPoint

open Binary

section Fields

variable {y : Single} (hfin : y.isFinite = true) (hlow : 1 / 2 ^ 32 ≤ y.toRat) (hhigh : y.toRat < 1)

include hfin hlow hhigh

/-- In range the sign bit is clear and the leading bit of the significand is not stored. -/
theorem encode_of_bounds : ∃ (m : Nat) (e : Int),
    multiplierOf y = (m : Int) * 128 ∧ shiftOf y = -24 - e ∧
    0x800000 ≤ m ∧ m < 0x1000000 ∧ -56 < e ∧ e < -23 ∧
    y.encode = (m - 0x800000) + 0x800000 * (e + 150).toNat := by
  obtain ⟨s, m, e, hc, rfl⟩ := exists_of_isFinite hfin
  obtain ⟨rfl, hm, hm', he, he'⟩ := finite_scale_bounds hlow hhigh
  refine ⟨m, e, rfl, rfl, hm, hm', he, he', ?_⟩
  change m + 0x800000 * (e - -149).toNat + 0 = _
  omega

theorem multiplierOf_eq_bits :
    multiplierOf y = (((y.encode &&& 0x7FFFFF ||| 0x800000) <<< 7 : Nat) : Int) := by
  obtain ⟨m, e, hmul, -, hm, hm', -, -, hbits⟩ := encode_of_bounds hfin hlow hhigh
  have hfraction : y.encode &&& 0x7FFFFF = m - 0x800000 := by
    rw [hbits, show 0x7FFFFF = 2 ^ 23 - 1 from rfl, Nat.and_two_pow_sub_one_eq_mod]
    omega
  have hfull : (m - 0x800000) ||| 0x800000 = m := by
    have h := Nat.two_pow_add_eq_or_of_lt (i := 23) (b := m - 0x800000) (by omega) 1
    rw [mul_one] at h
    rw [Nat.or_comm]
    exact h.symm.trans (by omega)
  rw [hmul, hfraction, hfull, Nat.shiftLeft_eq]
  push_cast
  rfl

theorem shiftOf_eq_bits : shiftOf y = 126 - ((y.encode >>> 23 : Nat) : Int) := by
  obtain ⟨m, e, -, hshift, hm, hm', he, he', hbits⟩ := encode_of_bounds hfin hlow hhigh
  have hfield : y.encode >>> 23 = (e + 150).toNat := by
    rw [hbits, Nat.shiftRight_eq_div_pow]
    omega
  rw [hshift, hfield]
  omega

end Fields

theorem decompose_eq {y : Single} {r : Int × Int} (h : decompose y = .ok r) :
    r = (multiplierOf y, shiftOf y) := by
  unfold decompose at h
  dsimp only at h
  split_ifs at h
  exact (Except.ok.inj h).symm

/-- In range the shift is never refused. -/
theorem rejection_of_decompose {y : Single} {r : Rejection} (h : decompose y = .error r) :
    r = .scaleTooSmall y.convert ∨ r = .scaleTooLarge y.convert := by
  by_cases hcompare : leastScale.le y = true ∧ y.lt (ofInt 1) = true
  · obtain ⟨hfin, hlow, hhigh⟩ := bounds_of_compare hcompare.1 hcompare.2
    obtain ⟨m, k, hok, -⟩ := decompose_ok hfin hlow hhigh
    rw [hok] at h
    cases h
  · unfold decompose at h
    split_ifs at h with hle hlt <;> simp_all

variable {path : Path} {scale : Double} {zeroPoint qmin qmax : Int}

theorem rejection_of_derive {r : Rejection} (h : derive path scale zeroPoint qmin qmax = .error r) :
    r = .zeroPoint zeroPoint ∨ r = .clampBounds qmin qmax ∨ decompose scale.convert = .error r := by
  unfold derive at h
  split_ifs at h
  · cases hdec : decompose scale.convert with
    | ok d =>
      rw [hdec] at h
      cases h
    | error e =>
      rw [hdec] at h
      cases h
      exact .inr (.inr rfl)
  · cases h
    exact .inr (.inl rfl)
  · cases h
    exact .inl rfl

theorem derive_eq_bits {p : Params} (h : derive path scale zeroPoint qmin qmax = .ok p) :
    p.multiplier = multiplierOf scale.convert ∧ p.shift = shiftOf scale.convert ∧
      p.path = path := by
  unfold derive at h
  split_ifs at h
  cases hdec : decompose scale.convert with
  | error e =>
    rw [hdec] at h
    cases h
  | ok r =>
    obtain rfl := decompose_eq hdec
    rw [hdec] at h
    cases h
    exact ⟨rfl, rfl, rfl⟩

theorem isOk_derive_iff : (∃ p, derive path scale zeroPoint qmin qmax = .ok p) ↔
    (0 ≤ zeroPoint ∧ zeroPoint ≤ 255) ∧ (0 ≤ qmin ∧ qmin ≤ qmax ∧ qmax ≤ 255) ∧
      (scale.convert : Single).isFinite = true ∧ 1 / 2 ^ 32 ≤ (scale.convert : Single).toRat ∧
      (scale.convert : Single).toRat < 1 := by
  constructor
  · rintro ⟨p, hp⟩
    exact bounds_of_derive hp
  · rintro ⟨hz, hq, hfin, hlow, hhigh⟩
    obtain ⟨p, hp, -⟩ := @derive_ok path _ _ _ _ hz hq hfin hlow hhigh
    exact ⟨p, hp⟩

theorem run_routine_error {σ : Type} {r : Rejection} (state : σ)
    (h : derive path scale zeroPoint qmin qmax = .error r) :
    (path.routine σ scale zeroPoint qmin qmax).run.run state = (.error r.raise, state) := by
  rw [Path.routine, h]
  rfl

namespace Rejection

variable {r : Rejection}

theorem kind_raise_of_short (h : ∀ p ∈ r.wording, p.Short) : r.raise.kind = "AssertionError" := by
  rw [raise, Error.worded_of_short h]
  rfl

theorem kind_raise_of_long (h : ¬ ∀ p ∈ r.wording, p.Short) : r.raise.kind = "ValueError" := by
  rw [raise, Error.worded_of_long h]
  rfl

theorem short_wording_of_derive (h : derive path scale zeroPoint qmin qmax = .error r)
    (hzero : Text.Short zeroPoint) (hmin : Text.Short qmin) (hmax : Text.Short qmax) :
    ∀ p ∈ r.wording, p.Short := by
  rcases rejection_of_derive h with rfl | rfl | h
  · simp [wording, hzero]
  · simp [wording, hmin, hmax]
  · rcases rejection_of_decompose h with rfl | rfl <;> simp [wording]

end Rejection

/-- A parameter routine rounds its scale to 32 bits, accepts exactly what it can decode, and decodes
it without loss. What it refuses it refuses with an assertion, as long as that can be written. -/
theorem derive_decodes (path : Path) (scale : Double) (zeroPoint qmin qmax : Int) :
    ∃ f : Single, (∀ y, Rounded scale y ↔ y = f) ∧
      ((∃ p, derive path scale zeroPoint qmin qmax = .ok p) ↔
        (0 ≤ zeroPoint ∧ zeroPoint ≤ 255) ∧ (0 ≤ qmin ∧ qmin ≤ qmax ∧ qmax ≤ 255) ∧
          f.isFinite = true ∧ 1 / 2 ^ 32 ≤ f.toRat ∧ f.toRat < 1) ∧
      (∀ p, derive path scale zeroPoint qmin qmax = .ok p →
        2 ^ 30 ≤ p.multiplier ∧ p.multiplier < 2 ^ 31 ∧ 0 ≤ p.shift ∧ p.shift ≤ 31 ∧
          (p.multiplier : Rat) * 2 ^ (-(31 + p.shift)) = f.toRat ∧
          p.multiplier = (((f.encode &&& 0x7FFFFF ||| 0x800000) <<< 7 : Nat) : Int) ∧
          p.shift = 126 - ((f.encode >>> 23 : Nat) : Int) ∧
          p.remainderMask = 2 ^ p.shift.toNat - 1 ∧
          p.remainderThreshold = ⌊(p.remainderMask : Rat) / 2⌋ ∧
          p.zeroPoint = zeroPoint ∧ p.qmin = qmin ∧ p.qmax = qmax ∧ p.path = path) ∧
      ∀ r, derive path scale zeroPoint qmin qmax = .error r →
        (∀ {σ : Type} (state : σ), (path.routine σ scale zeroPoint qmin qmax).run.run state =
          (.error r.raise, state)) ∧
        (Text.Short zeroPoint ∧ Text.Short qmin ∧ Text.Short qmax → ∀ p ∈ r.wording, p.Short) ∧
        r.raise.kind =
          (if ∀ p ∈ r.wording, p.Short then "AssertionError" else "ValueError") ∧
        ∀ got, r ≠ .shift got := by
  refine ⟨scale.convert, fun y ↦ rounded_iff_eq_convert (by decide), isOk_derive_iff, ?_, ?_⟩
  · intro p hp
    obtain ⟨-, -, hfin, hlow, hhigh⟩ := bounds_of_derive hp
    obtain ⟨hsound, hscale, hz, hmin, hmax⟩ := derive_spec hp
    obtain ⟨hmul, hshift, hpath⟩ := derive_eq_bits hp
    have hshift31 : p.shift ≤ 31 := Int.lt_add_one_iff.1 hsound.shift_lt
    refine ⟨hsound.multiplier_ge, hsound.multiplier_lt, hsound.shift_nonneg, hshift31, ?_,
      hmul.trans (multiplierOf_eq_bits hfin hlow hhigh),
      hshift.trans (shiftOf_eq_bits hfin hlow hhigh), hsound.mask_eq, ?_, hz, hmin, hmax, hpath⟩
    · have hexp : (31 + p.shift) = ((31 + p.shift.toNat : Nat) : Int) := by
        have := hsound.shift_nonneg
        omega
      rw [hexp, zpow_neg, zpow_natCast, ← div_eq_mul_inv]
      exact hscale
    · rw [hsound.threshold_eq]
      exact (Rat.floor_intCast_div_natCast p.remainderMask 2).symm
  · intro r hr
    refine ⟨fun state ↦ run_routine_error state hr,
      fun ⟨hzero, hmin, hmax⟩ ↦ Rejection.short_wording_of_derive hr hzero hmin hmax, ?_, ?_⟩
    · split
      · next h => exact Rejection.kind_raise_of_short h
      · next h => exact Rejection.kind_raise_of_long h
    · rintro got rfl
      rcases rejection_of_derive hr with h | h | h
      · cases h
      · cases h
      · rcases rejection_of_decompose h with h | h <;> cases h

/-- A zero point of more digits than a text has room for is refused, but not with an assertion. -/
theorem routine_unworded :
    (∃ r, derive .vector (.ofRat (1 / 2)) (10 ^ 4300) 0 255 = .error r) ∧
      (((Path.vector.routine Unit (.ofRat (1 / 2)) (10 ^ 4300) 0 255).run.run ()).1.mapError
        Error.kind).map (·.multiplier) = .error "ValueError" :=
  ⟨⟨.zeroPoint (10 ^ 4300), by decide +kernel⟩, by decide +kernel⟩

/-- The largest scale that is not rounded up to one. -/
def belowOne : Double := .ofRat (1 - 1 / 2 ^ 25 - 1 / 2 ^ 53)

def belowOneParams : Params := ⟨0x7FFFFF80, 0, 0, 0, 255, 0, 255, .vector⟩

theorem derive_decodes_belowOne :
    derive .vector belowOne 255 0 255 = .ok belowOneParams ∧
      ∃ f : Single, (∀ y, Rounded belowOne y ↔ y = f) ∧ f.toRat < 1 ∧
        (belowOneParams.multiplier : Rat) * 2 ^ (-(31 + belowOneParams.shift)) = f.toRat := by
  have hp : derive .vector belowOne 255 0 255 = .ok belowOneParams := by decide +kernel
  obtain ⟨f, hf, haccept, hdecode, -⟩ := derive_decodes .vector belowOne 255 0 255
  obtain ⟨-, -, -, -, hhigh⟩ := haccept.1 ⟨_, hp⟩
  obtain ⟨-, -, -, -, hscale, -⟩ := hdecode _ hp
  exact ⟨hp, f, hf, hhigh, hscale⟩

end Depthwise.FixedPoint
