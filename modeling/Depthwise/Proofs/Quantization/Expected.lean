import Depthwise.Proofs.Quantization.Scale

namespace Depthwise.Affine

open Binary

variable {q : Affine} {acc : Int}

/-- A sane scale leaves whole and half numbers where every wide format has room. -/
theorem Sane.moderate_half {scale : Double} (h : Sane scale) {n : Int} (hn : |n| ≤ 2 ^ 33) :
    Moderate ((n : Rat) / 2 / scale.toRat) := by
  have hpos := h.pos
  have hlow := h.2.1
  have hhigh := h.2.2
  rcases eq_or_ne n 0 with rfl | hne
  · exact .inl (by rw [Int.cast_zero, zero_div, zero_div])
  · have hone : (1 : Rat) ≤ |(n : Rat)| := by exact_mod_cast Int.one_le_abs hne
    have hmax : |(n : Rat)| ≤ 2 ^ 33 := by exact_mod_cast hn
    norm_num at hhigh hmax
    refine .of_bounds ?_ ?_ <;> rw [abs_div, abs_div, abs_two, abs_of_pos hpos]
    · rw [le_div_iff₀ hpos]
      norm_num
      linarith
    · rw [div_le_iff₀ hpos]
      norm_num
      linarith

def quotient (q : Affine) (acc : Int) : Double := .ofInt acc / q.scale

theorem quotient_eq_round (h : Sane q.scale) (hacc : |acc| ≤ 2 ^ 32) :
    (q.quotient acc).isFinite = true ∧
      (q.quotient acc).toRat = Format.double.round (acc / q.scale.toRat) ∧
      Moderate (acc / q.scale.toRat) := by
  have hrange := abs_le.1 hacc
  obtain ⟨hint, hval⟩ := toRat_ofInt_double acc (by omega)
  have hmoderate : Moderate (acc / q.scale.toRat) := by
    have hdouble := h.moderate_half (n := acc * 2) (by rw [abs_le]; omega)
    rwa [Int.cast_mul, Int.cast_two, mul_div_cancel_right₀ _ two_ne_zero] at hdouble
  obtain ⟨hfin, hquot⟩ := div_spec hint h.1 h.pos.ne' (by rw [hval]; exact hmoderate.lt_limit)
  rw [hval] at hquot
  exact ⟨hfin, hquot, hmoderate⟩

theorem quotient_spec (h : Sane q.scale) (hacc : |acc| ≤ 2 ^ 32) :
    (q.quotient acc).isFinite = true ∧
      |(q.quotient acc).toRat - acc / q.scale.toRat| ≤ |acc / q.scale.toRat| / 2 ^ 53 := by
  obtain ⟨hfin, hval, hmoderate⟩ := quotient_eq_round h hacc
  rw [hval]
  exact ⟨hfin, hmoderate.abs_round_sub_le⟩

theorem bound_spec {bound zeroPoint : Int} (hbound : 0 ≤ bound ∧ bound ≤ 255)
    (hzero : 0 ≤ zeroPoint ∧ zeroPoint ≤ 255) :
    ((.ofInt bound - .ofInt zeroPoint : Double)).isFinite = true ∧
      ((.ofInt bound - .ofInt zeroPoint : Double)).toRat = bound - zeroPoint := by
  obtain ⟨hfin, hval⟩ := toRat_ofInt_double bound (by omega)
  obtain ⟨hfin', hval'⟩ := toRat_ofInt_double zeroPoint (by omega)
  have hdiff : (bound : Rat) - zeroPoint = ((bound - zeroPoint : Int) : Rat) := by push_cast; rfl
  have hlimit : |(ofInt bound : Double).toRat - (ofInt zeroPoint : Double).toRat| <
      Format.double.limit := by
    rw [hval, hval', hdiff]
    refine lt_limit_of_bits ?_ (by decide)
    rw [← Int.cast_abs]
    have : |bound - zeroPoint| < 2 ^ 53 := by rw [abs_lt]; omega
    exact_mod_cast this
  obtain ⟨hsub, hsubval⟩ := sub_spec hfin hfin' hlimit
  refine ⟨hsub, ?_⟩
  rw [hsubval, hval, hval', hdiff]
  exact round_intCast (by decide) (by norm_num [Format.double]; omega)

variable {qmin qmax : Int}

theorem expected_spec (h : Sane q.scale) (hacc : |acc| ≤ 2 ^ 32)
    (hzero : 0 ≤ q.zeroPoint ∧ q.zeroPoint ≤ 255) (hqmin : 0 ≤ qmin) (hle : qmin ≤ qmax)
    (hqmax : qmax ≤ 255) :
    (q.expected qmin qmax acc).isFinite = true ∧
      (q.expected qmin qmax acc).toRat =
        min (max (q.quotient acc).toRat (qmin - q.zeroPoint)) (qmax - q.zeroPoint) := by
  obtain ⟨hlow, hlowval⟩ := bound_spec (show 0 ≤ qmin ∧ qmin ≤ 255 by omega) hzero
  obtain ⟨hhigh, hhighval⟩ := bound_spec (show 0 ≤ qmax ∧ qmax ≤ 255 by omega) hzero
  obtain ⟨hfin, hval⟩ := clip_spec (quotient_spec h hacc).1 hlow hhigh
  rw [hlowval, hhighval] at hval
  exact ⟨hfin, hval⟩

theorem expected_mem (h : Sane q.scale) (hacc : |acc| ≤ 2 ^ 32)
    (hzero : 0 ≤ q.zeroPoint ∧ q.zeroPoint ≤ 255) (hqmin : 0 ≤ qmin) (hle : qmin ≤ qmax)
    (hqmax : qmax ≤ 255) :
    (qmin : Rat) - q.zeroPoint ≤ (q.expected qmin qmax acc).toRat ∧
      (q.expected qmin qmax acc).toRat ≤ qmax - q.zeroPoint := by
  have hbounds : (qmin : Rat) ≤ qmax := by exact_mod_cast hle
  rw [(expected_spec h hacc hzero hqmin hle hqmax).2]
  exact ⟨le_min (le_max_right _ _) (sub_le_sub_right hbounds _), min_le_right _ _⟩

theorem abs_expected_le (h : Sane q.scale) (hacc : |acc| ≤ 2 ^ 32)
    (hzero : 0 ≤ q.zeroPoint ∧ q.zeroPoint ≤ 255) (hqmin : 0 ≤ qmin) (hle : qmin ≤ qmax)
    (hqmax : qmax ≤ 255) : |(q.expected qmin qmax acc).toRat| ≤ 255 := by
  have hlow : (-255 : Rat) ≤ qmin - q.zeroPoint := by
    exact_mod_cast (by omega : -255 ≤ qmin - q.zeroPoint)
  have hhigh : (qmax : Rat) - q.zeroPoint ≤ 255 := by
    exact_mod_cast (by omega : qmax - q.zeroPoint ≤ 255)
  obtain ⟨hge, hle'⟩ := expected_mem h hacc hzero hqmin hle hqmax
  exact abs_le.2 ⟨hlow.trans hge, hle'.trans hhigh⟩

def Far (u w : Rat) : Prop := (511 ≤ u ∧ 511 ≤ w) ∨ (u ≤ -511 ∧ w ≤ -511)

/-- The quotient and the scaled accumulator can only drift apart far outside the codes. -/
theorem near_or_far (h : Sane q.scale) (hacc : |acc| ≤ 2 ^ 32) :
    |(q.quotient acc).toRat - acc * q.requantizationScale.toRat| ≤ 1 / 4000 ∨
      Far (q.quotient acc).toRat (acc * q.requantizationScale.toRat) := by
  have hpos := h.pos
  obtain ⟨-, -, -, -, hscale⟩ := requantizationScale_spec h
  obtain ⟨-, hquotient⟩ := quotient_spec h hacc
  set v : Rat := acc / q.scale.toRat with hv
  have hscaled : |acc * q.requantizationScale.toRat - v| ≤ |v| / 2 ^ 22 := by
    have hfactor : acc * q.requantizationScale.toRat - v =
        v * (q.requantizationScale.toRat * q.scale.toRat - 1) := by
      rw [hv]
      field_simp
    rw [hfactor, abs_mul, div_eq_mul_one_div]
    exact mul_le_mul_of_nonneg_left hscale (abs_nonneg v)
  generalize (q.quotient acc).toRat = u at *
  generalize acc * q.requantizationScale.toRat = w at *
  rw [abs_le] at hquotient hscaled
  norm_num at hquotient hscaled
  rcases le_total 0 v with hsign | hsign
  · rw [abs_of_nonneg hsign] at hquotient hscaled
    rcases le_total v 512 with hv | hv
    · exact .inl (by rw [abs_le]; constructor <;> linarith)
    · exact .inr (.inl ⟨by linarith, by linarith⟩)
  · rw [abs_of_nonpos hsign] at hquotient hscaled
    rcases le_total (-512) v with hv | hv
    · exact .inl (by rw [abs_le]; constructor <;> linarith)
    · exact .inr (.inr ⟨by linarith, by linarith⟩)

theorem tolerance_spec : tolerance.isFinite = true ∧
    tolerance.toRat = Format.double.nearest (3 / 5) := by
  have hsix : (0.6 : Rat) = 3 / 5 := by norm_num
  have hmoderate : Moderate (0.6 : Rat) :=
    .of_bounds (by norm_num [abs_of_nonneg]) (by norm_num [abs_of_nonneg])
  obtain ⟨hfin, hval⟩ := ofRat_spec (F := .double) hmoderate.lt_limit
  refine ⟨hfin, ?_⟩
  rw [tolerance, hval, hsix, Format.round_of_nonneg _ (by norm_num)]

def pastTolerance : Int := 10808639105689191

theorem nearest_lt_nearest_pastTolerance :
    Format.double.nearest (3 / 5) < Format.double.nearest (pastTolerance / 2 ^ 54) := by
  decide +kernel

/-- The distance of a 64-bit value from an integer misses the gap between three fifths and the next
multiple of `2 ^ -54`. -/
theorem pastTolerance_le {e : Double} (he : e.isFinite = true) {o : Int}
    (h : 3 / 5 < |e.toRat - o|) : pastTolerance / 2 ^ 54 ≤ |e.toRat - o| := by
  have hpast : (pastTolerance : Rat) / 2 ^ 54 ≤ 3 / 4 := by norm_num [pastTolerance]
  rcases lt_or_ge |e.toRat| (1 / 4) with hsmall | hlarge
  · rw [abs_lt] at hsmall
    rcases eq_or_ne o 0 with rfl | hne
    · rw [Int.cast_zero, sub_zero, lt_abs] at h
      rcases h with h | h <;> linarith
    · have hone : (1 : Rat) ≤ |(o : Rat)| := by exact_mod_cast Int.one_le_abs hne
      have htriangle := abs_sub_abs_le_abs_sub (o : Rat) e.toRat
      rw [abs_sub_comm] at htriangle
      have := abs_lt.2 hsmall
      linarith
  · obtain ⟨n, hn⟩ := exists_eq_mul_zpow he (e := -54) (by
      norm_num [Format.double]
      exact hlarge)
    have hgrid : |e.toRat - o| = ((|n - o * 2 ^ 54| : Int) : Rat) / 2 ^ 54 := by
      have hunit : (2 : Rat) ^ (-54 : Int) = 1 / 2 ^ 54 := by norm_num
      have hfactor : e.toRat - o = ((n - o * 2 ^ 54 : Int) : Rat) / 2 ^ 54 := by
        rw [hn, hunit]
        push_cast
        ring
      rw [hfactor, abs_div, ← Int.cast_abs, abs_of_pos (show (0 : Rat) < 2 ^ 54 by positivity)]
    rw [hgrid, lt_div_iff₀ (by positivity)] at h
    rw [hgrid]
    have hlt : (pastTolerance - 1 : Int) < |n - o * 2 ^ 54| := by
      have : ((pastTolerance - 1 : Int) : Rat) < ((|n - o * 2 ^ 54| : Int) : Rat) :=
        lt_trans (by norm_num [pastTolerance]) h
      exact_mod_cast this
    have hle : (pastTolerance : Rat) ≤ ((|n - o * 2 ^ 54| : Int) : Rat) := by
      exact_mod_cast (by omega : pastTolerance ≤ |n - o * 2 ^ 54|)
    exact div_le_div_of_nonneg_right hle (by positivity)

/-- The test of a difference against the tolerance is exact. -/
theorem tolerance_lt_iff {e : Double} (he : e.isFinite = true) (hbound : |e.toRat| ≤ 2 ^ 10)
    {o : Int} (ho : |o| ≤ 2 ^ 10) :
    tolerance.lt (e - .ofInt o).abs = true ↔ 3 / 5 < |e.toRat - o| := by
  have hrange := abs_le.1 ho
  obtain ⟨hint, hval⟩ := toRat_ofInt_double o (by omega)
  have ho' : |(o : Rat)| ≤ 2 ^ 10 := by exact_mod_cast ho
  have hlimit : |e.toRat - (ofInt o : Double).toRat| < Format.double.limit := by
    rw [hval]
    refine lt_limit_of_bits ((abs_sub _ _).trans_lt ?_) (by decide)
    norm_num [Format.double] at hbound ho' ⊢
    linarith
  obtain ⟨hsub, hsubval⟩ := sub_spec he hint hlimit
  obtain ⟨habs, habsval⟩ := abs_spec hsub
  have hnearest : |Format.double.round (e.toRat - o)| = Format.double.nearest |e.toRat - o| := by
    rw [Format.round, abs_mul, abs_sign, one_mul,
      abs_of_nonneg (Format.nearest_nonneg _ (abs_nonneg _))]
  rw [lt_eq tolerance_spec.1 habs, tolerance_spec.2, habsval, hsubval, hval, hnearest,
    decide_eq_true_iff]
  constructor
  · intro h
    by_contra hle
    exact absurd (Format.nearest_mono _ (abs_nonneg _) (not_lt.1 hle)) (not_le.2 h)
  · intro h
    have hpast := Format.nearest_mono .double (by norm_num [pastTolerance]) (pastTolerance_le he h)
    exact nearest_lt_nearest_pastTolerance.trans_le hpast

end Depthwise.Affine
