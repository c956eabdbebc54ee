import Depthwise.Proofs.Contrast
import Depthwise.Proofs.Quantization.Expected

namespace Depthwise.Affine

variable {q : Affine} {acc low high k : Int}

theorem abs_div_scale_sub_le (h : Sane q.scale) (hacc : |acc| ≤ 2 ^ 32) (hk : |k| ≤ 255)
    (hnear : |(q.quotient acc).toRat - k| ≤ 3 / 5) : |acc / q.scale.toRat - k| ≤ 601 / 1000 := by
  obtain ⟨-, herr⟩ := quotient_spec h hacc
  have hk' : |(k : Rat)| ≤ 255 := by exact_mod_cast hk
  generalize (acc : Rat) / q.scale.toRat = v at *
  generalize (q.quotient acc).toRat = u at *
  rw [abs_le] at hnear hk' herr ⊢
  norm_num at herr
  rcases le_total 0 v with hsign | hsign
  · rw [abs_of_nonneg hsign] at herr
    constructor <;> linarith
  · rw [abs_of_nonpos hsign] at herr
    constructor <;> linarith

/-- At the scale floor an accumulator is next to its quotient. -/
theorem eq_of_abs_div_scaleFloor_sub_le (hk : |k| ≤ 255)
    (h : |acc / scaleFloor.toRat - k| ≤ 601 / 1000) : acc = k := by
  obtain ⟨-, hlow, hhigh⟩ := scaleFloor_spec
  have hpos : (0 : Rat) < scaleFloor.toRat := by linarith
  have hk' : |(k : Rat)| ≤ 255 := by exact_mod_cast hk
  have hacc : (acc : Rat) = acc / scaleFloor.toRat * scaleFloor.toRat := by field_simp
  generalize (acc : Rat) / scaleFloor.toRat = v at *
  have hv : |v| ≤ 256 := by
    rw [abs_le] at h hk' ⊢
    constructor <;> linarith
  have hfactor : acc - v = v * (scaleFloor.toRat - 1) := by
    rw [hacc]
    ring
  have hdrift : |acc - v| ≤ 256 * (11 / 1000000) := by
    rw [hfactor, abs_mul]
    refine mul_le_mul hv ?_ (abs_nonneg _) (by norm_num)
    rw [abs_of_nonneg (by linarith)]
    linarith
  have hdistance : |((acc - k : Int) : Rat)| < 1 := by
    push_cast
    calc |(acc : Rat) - k| ≤ |acc - v| + |v - k| := abs_sub_le _ _ _
      _ < 1 := by linarith
  have hzero : |acc - k| < 1 := by exact_mod_cast hdistance
  rw [Int.abs_lt_one_iff] at hzero
  omega

/-- The quotients of the extreme accumulators are not both within the tolerance of one code. -/
theorem not_near_of_lt (hlt : low < high) (hlow : |low| ≤ 2 ^ 31) (hhigh : |high| ≤ 2 ^ 31)
    (hk : |k| ≤ 255) (h : |((ofRange low high).quotient low).toRat - k| ≤ 3 / 5) :
    ¬ |((ofRange low high).quotient high).toRat - k| ≤ 3 / 5 := by
  intro h'
  have hlow' := abs_le.1 hlow
  have hhigh' := abs_le.1 hhigh
  have hsane : Sane (ofRange low high).scale := scaleOfRange_sane (by omega)
  have hnear := abs_div_scale_sub_le hsane (hlow.trans (by norm_num)) hk h
  have hnear' := abs_div_scale_sub_le hsane (hhigh.trans (by norm_num)) hk h'
  have hpos := hsane.pos
  rcases lt_or_ge (high - low) 256 with hrange | hrange
  · have hscale : (ofRange low high).scale = scaleFloor := if_neg (by omega)
    rw [hscale] at hnear hnear'
    have heq := eq_of_abs_div_scaleFloor_sub_le hk hnear
    have heq' := eq_of_abs_div_scaleFloor_sub_le hk hnear'
    omega
  · obtain ⟨-, herr⟩ := scaleOfRange_spec hrange (by omega)
    have hscale : (ofRange low high).scale = scaleOfRange (high - low) := rfl
    have hwide : (256 : Rat) ≤ high - low := by exact_mod_cast hrange
    have hspread : ((high : Rat) - low) / (ofRange low high).scale.toRat ≤ 1202 / 1000 := by
      rw [abs_le] at hnear hnear'
      rw [sub_div]
      linarith
    rw [div_le_iff₀ hpos, hscale] at hspread
    rw [abs_le] at herr
    push_cast at herr
    norm_num at herr
    linarith

theorem exists_lt_of_ofAccumulators {accs : List Int} (hq : ofAccumulators accs = .ok q)
    (hlength : 2 ≤ accs.length) (hcontrast : ∀ v, ¬ Contrast.Uniform accs v) :
    ∃ low ∈ accs, ∃ high ∈ accs, low < high ∧ q = ofRange low high := by
  rcases accs with _ | ⟨a, rest⟩
  · cases hq
  obtain ⟨hmin, hge⟩ := foldl_min_spec (rfl : rest.foldl min a = _)
  obtain ⟨hmax, hle⟩ := foldl_max_spec (rfl : rest.foldl max a = _)
  refine ⟨_, hmin, _, hmax, lt_of_le_of_ne (hge _ hmax) fun heq ↦ ?_, (Except.ok.inj hq).symm⟩
  refine hcontrast _ ⟨hlength, fun b hb ↦ le_antisymm (hle b hb) ?_⟩
  rw [← heq]
  exact hge b hb

theorem clamp_eq_of_lt {u low high : Rat} (hlow : low < min (max u low) high)
    (hhigh : min (max u low) high < high) : min (max u low) high = u := by
  rw [min_eq_left_of_lt (by simpa using hhigh)] at hlow ⊢
  exact max_eq_left_of_lt (by simpa using hlow)

section Expected

variable {qmin qmax v : Int} (hsane : Sane q.scale) (hacc : |acc| ≤ 2 ^ 32)
  (hzero : 0 ≤ q.zeroPoint ∧ q.zeroPoint ≤ 255) (hqmin : 0 ≤ qmin) (hqmax : qmax ≤ 255)
  (hnear : |(q.expected qmin qmax acc).toRat - (v - q.zeroPoint : Int)| ≤ 3 / 5)

include hsane hacc hzero hqmin hqmax hnear

/-- Only a code between the clamp bounds is within the tolerance of an expected value. -/
theorem mem_of_expected_near (hle : qmin ≤ qmax) : qmin ≤ v ∧ v ≤ qmax := by
  obtain ⟨hlow, hhigh⟩ := expected_mem hsane hacc hzero hqmin hle hqmax
  obtain ⟨hleft, hright⟩ := abs_le.1 hnear
  push_cast at hleft hright
  constructor <;> by_contra hnot
  · have : (v : Rat) + 1 ≤ qmin := by exact_mod_cast not_le.1 hnot
    linarith
  · have : (qmax : Rat) + 1 ≤ v := by exact_mod_cast not_le.1 hnot
    linarith

/-- Next to a code strictly between the bounds nothing is clamped. -/
theorem quotient_near_of_expected_near (hlow : qmin < v) (hhigh : v < qmax) :
    |(q.quotient acc).toRat - (v - q.zeroPoint : Int)| ≤ 3 / 5 := by
  have hlow' : (qmin : Rat) + 1 ≤ v := by exact_mod_cast hlow
  have hhigh' : (v : Rat) + 1 ≤ qmax := by exact_mod_cast hhigh
  obtain ⟨hleft, hright⟩ := abs_le.1 hnear
  push_cast at hleft hright
  have hspec := (expected_spec hsane hacc hzero hqmin (hlow.trans hhigh).le hqmax).2
  rw [hspec] at hleft hright
  rwa [hspec, clamp_eq_of_lt (by linarith) (by linarith)] at hnear

end Expected

/-- All expected values are within the tolerance of the code `v`, which is a clamp bound. -/
def Saturates (q : Affine) (qmin qmax : Int) (accs : List Int) (v : Int) : Prop :=
  v = qmax ∧ (∀ a ∈ accs, qmax - q.zeroPoint - 3 / 5 ≤ (q.expected qmin qmax a).toRat) ∨
    v = qmin ∧ ∀ a ∈ accs, (q.expected qmin qmax a).toRat ≤ qmin - q.zeroPoint + 3 / 5

instance (q : Affine) (qmin qmax : Int) (accs : List Int) (v : Int) :
    Decidable (q.Saturates qmin qmax accs v) :=
  inferInstanceAs (Decidable (_ ∨ _))

/-- A code is within the tolerance of all expected values only where these saturate. -/
theorem forall_near_iff_saturates {accs : List Int} {qmin qmax v : Int}
    (hq : ofAccumulators accs = .ok q) (hlength : 2 ≤ accs.length)
    (hcontrast : ∀ v, ¬ Contrast.Uniform accs v) (hacc : ∀ a ∈ accs, |a| ≤ 2 ^ 31)
    (hsane : Sane q.scale) (hzero : 0 ≤ q.zeroPoint ∧ q.zeroPoint ≤ 255) (hqmin : 0 ≤ qmin)
    (hlt : qmin < qmax) (hqmax : qmax ≤ 255) :
    (∀ a ∈ accs, |(q.expected qmin qmax a).toRat - (v - q.zeroPoint : Int)| ≤ 3 / 5) ↔
      q.Saturates qmin qmax accs v := by
  have hacc' : ∀ a ∈ accs, |a| ≤ 2 ^ 32 := fun a ha ↦ (hacc a ha).trans (by norm_num)
  obtain ⟨low, hlow, high, hhigh, hrange, rfl⟩ := exists_lt_of_ofAccumulators hq hlength hcontrast
  constructor
  · intro hnear
    obtain ⟨hvmin, hvmax⟩ :=
      mem_of_expected_near hsane (hacc' low hlow) hzero hqmin hqmax (hnear low hlow) hlt.le
    rcases hvmax.eq_or_lt with rfl | hvmax
    · refine .inl ⟨rfl, fun a ha ↦ ?_⟩
      have hleft := (abs_le.1 (hnear a ha)).1
      push_cast at hleft
      linarith
    rcases hvmin.eq_or_lt with rfl | hvmin
    · refine .inr ⟨rfl, fun a ha ↦ ?_⟩
      have hright := (abs_le.1 (hnear a ha)).2
      push_cast at hright
      linarith
    have hquotient := fun a ha ↦
      quotient_near_of_expected_near hsane (hacc' a ha) hzero hqmin hqmax (hnear a ha) hvmin hvmax
    exact absurd (hquotient high hhigh) (not_near_of_lt hrange (hacc low hlow) (hacc high hhigh)
      (abs_le.2 ⟨by omega, by omega⟩) (hquotient low hlow))
  · intro hsaturates a ha
    obtain ⟨hge, hle⟩ := expected_mem hsane (hacc' a ha) hzero hqmin hlt.le hqmax
    push_cast
    rcases hsaturates with ⟨rfl, h⟩ | ⟨rfl, h⟩
    · exact abs_le.2 ⟨by linarith [h a ha], by linarith⟩
    · exact abs_le.2 ⟨by linarith, by linarith [h a ha]⟩

end Depthwise.Affine
